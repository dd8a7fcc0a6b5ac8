import HtmlLayout.Html.Lexer.State

/-!
# The lexer

The lexer reads one character at a time. A step leads to a new state and to the tokens that the
character completes, which are few. Where a character ends one thing and starts the next, the step
of the state it starts in is taken at once, so the order of the definitions below is the order in
which states fall back on each other. At the end of the input, `finish` gives the tokens of what
was left incomplete: text is kept, comments and document types end there, and tags are dropped.
-/

namespace HtmlLayout.Html.Lexer

open Text

/-- A state with the tokens on the way to it. -/
abbrev Move := State × List Token

/-- A move with tokens before its own. -/
def Move.after (tokens : List Token) (move : Move) : Move :=
  (move.1, tokens ++ move.2)

/-- The character that stands for a null in names, values, comments and raw text. -/
def denull (c : Char) : Char :=
  if c == '\x00' then '\ufffd' else c

/-- A character in a name: in lower case, and never a null. -/
def nameChar (c : Char) : Char := lowerChar (denull c)

/-! ### Text -/

/-- A character of text in data, where blanks that start a stretch are told apart. -/
def stretch (content : Content) (inRun : Bool) (c : Char) : Move :=
  if !inRun && isMarkupSpace c then (.text content false, [.space c])
  else (.text content true, [.char c])

def stepText (content : Content) (inRun : Bool) (c : Char) : Move :=
  match content with
  | .data =>
      if c == '<' then (.tagOpen, [])
      else if c == '&' then (.reference .data .opened, [])
      else if c == '\x00' then (.text .data false, [.char c])
      else stretch .data inRun c
  | .rcdata closer =>
      if c == '<' then (.rawLess (.rcdata closer), [])
      else if c == '&' then (.reference (.rcdata closer) .opened, [])
      else if c == '\x00' then (.text (.rcdata closer) false, [.char '\ufffd'])
      else stretch (.rcdata closer) inRun c
  | .plaintext => (.text .plaintext true, [.char (denull c)])
  | raw =>
      if c == '<' then (.rawLess raw, [])
      else (.text raw true, [.char (denull c)])

/-- The tokens of a reference's text. A single blank counts as a space. -/
def referenceTokens (text : String) : List Token :=
  match text.toList with
  | [c] => if isMarkupSpace c then [.space c] else [.char c]
  | cs => cs.map .char

def stepReference (content : Content) (ref : Reference) (c : Char) : Move :=
  match ref.step false c with
  | .more next => (.reference content next, [])
  | .overlong digits => (.text content false, [.overlong digits])
  | .done text true => (.text content false, referenceTokens text)
  | .done text false => (stepText content false c).after (referenceTokens text)

/-! ### Comments -/

def endComment (data : String) : Move := (.text .data false, [.comment data])

/-- A step in a comment that ends at the first closing bracket. -/
def stepBogusComment (data : String) (c : Char) : Move :=
  if c == '>' then endComment data else (.bogusComment (data.push (denull c)), [])

def stepComment (part : CommentPart) (data : String) (c : Char) : Move :=
  match part with
  | .start =>
      if c == '-' then (.comment .startDash data, [])
      else if c == '>' then endComment data
      else if c == '\x00' then (.comment .start (data.push '\ufffd'), [])
      else (.comment .body (data.push c), [])
  | .startDash =>
      if c == '-' then (.comment .endDashes data, [])
      else if c == '>' then endComment data
      else if c == '\x00' then (.comment .startDash (data ++ "-\ufffd"), [])
      else (.comment .body ((data ++ "-").push c), [])
  | .body =>
      if c == '-' then (.comment .endDash data, [])
      else (.comment .body (data.push (denull c)), [])
  | .endDash =>
      if c == '-' then (.comment .endDashes data, [])
      else (.comment .body ((data ++ "-").push (denull c)), [])
  | .endDashes =>
      if c == '>' then endComment data
      else if c == '!' then (.comment .endBang data, [])
      else if c == '-' then (.comment .endDashes (data.push '-'), [])
      else (.comment .body ((data ++ "--").push (denull c)), [])
  | .endBang =>
      if c == '>' then endComment data
      else if c == '-' then (.comment .endDash (data ++ "--!"), [])
      else (.comment .body ((data ++ "--!").push (denull c)), [])

/-! ### Document types -/

def endDoctype (declaration : Declaration) : Move := (.text .data false, [declaration.token])

def breakDoctype (declaration : Declaration) : Move := endDoctype { declaration with correct := false }

/-- A document type goes on with something it cannot hold. -/
def spoilDoctype (declaration : Declaration) : Move := (.doctype .bogus { declaration with correct := false }, [])

/-- A step in what is passed over. -/
def stepBogusDoctype (declaration : Declaration) (c : Char) : Move :=
  if c == '>' then endDoctype declaration else (.doctype .bogus declaration, [])

def stepBeforeName (declaration : Declaration) (c : Char) : Move :=
  if isMarkupSpace c then (.doctype .beforeName declaration, [])
  else if c == '>' then breakDoctype declaration
  else (.doctype .name { declaration with name := declaration.name.push (nameChar c) }, [])

/-- A step in one of the words that announce an identifier. -/
def stepKeyword (seen : String) (declaration : Declaration) (c : Char) : Move :=
  let word := seen.push (lowerChar c)
  if word == "public" then (.doctype .afterPublicWord declaration, [])
  else if word == "system" then (.doctype .afterSystemWord declaration, [])
  else if startsWith "public" word || startsWith "system" word then (.doctype (.keyword word) declaration, [])
  else stepBogusDoctype { declaration with correct := false } c

def stepBeforePublic (declaration : Declaration) (c : Char) : Move :=
  if isMarkupSpace c then (.doctype .beforePublic declaration, [])
  else if c == '"' then (.doctype (.publicId true) { declaration with publicId := some "" }, [])
  else if c == '\'' then (.doctype (.publicId false) { declaration with publicId := some "" }, [])
  else if c == '>' then breakDoctype declaration
  else spoilDoctype declaration

/-- A step before the system identifier, where a document type without one may not end. -/
def stepBeforeSystem (declaration : Declaration) (c : Char) : Move :=
  if isMarkupSpace c then (.doctype .beforeSystem declaration, [])
  else if c == '"' then (.doctype (.systemId true) { declaration with systemId := some "" }, [])
  else if c == '\'' then (.doctype (.systemId false) { declaration with systemId := some "" }, [])
  else if c == '>' then breakDoctype declaration
  else spoilDoctype declaration

/-- A step between the two identifiers, where a document type may end. -/
def stepBetween (declaration : Declaration) (c : Char) : Move :=
  if isMarkupSpace c then (.doctype .between declaration, [])
  else if c == '>' then endDoctype declaration
  else if c == '"' then (.doctype (.systemId true) { declaration with systemId := some "" }, [])
  else if c == '\'' then (.doctype (.systemId false) { declaration with systemId := some "" }, [])
  else spoilDoctype declaration

def closesQuote (double : Bool) (c : Char) : Bool :=
  if double then c == '"' else c == '\''

def stepDoctype (part : DoctypePart) (declaration : Declaration) (c : Char) : Move :=
  match part with
  | .afterWord => stepBeforeName declaration c
  | .beforeName => stepBeforeName declaration c
  | .name =>
      if isMarkupSpace c then (.doctype .afterName declaration, [])
      else if c == '>' then endDoctype declaration
      else (.doctype .name { declaration with name := declaration.name.push (nameChar c) }, [])
  | .afterName =>
      if isMarkupSpace c then (.doctype .afterName declaration, [])
      else if c == '>' then endDoctype declaration
      else stepKeyword "" declaration c
  | .keyword seen => stepKeyword seen declaration c
  | .afterPublicWord => stepBeforePublic declaration c
  | .beforePublic => stepBeforePublic declaration c
  | .publicId double =>
      if closesQuote double c then (.doctype .afterPublic declaration, [])
      else if c == '>' then breakDoctype declaration
      else (.doctype part { declaration with publicId := declaration.publicId.map (·.push (denull c)) }, [])
  | .afterPublic => stepBetween declaration c
  | .between => stepBetween declaration c
  | .afterSystemWord => stepBeforeSystem declaration c
  | .beforeSystem => stepBeforeSystem declaration c
  | .systemId double =>
      if closesQuote double c then (.doctype .afterSystem declaration, [])
      else if c == '>' then breakDoctype declaration
      else (.doctype part { declaration with systemId := declaration.systemId.map (·.push (denull c)) }, [])
  | .afterSystem =>
      if isMarkupSpace c then (.doctype .afterSystem declaration, [])
      else stepBogusDoctype declaration c
  | .bogus => stepBogusDoctype declaration c

/-! ### Tags -/

def endTag (tag : OpenTag) : Move := (.text .data false, [tag.token])

def stepBeforeAttribute (tag : OpenTag) (c : Char) : Move :=
  if isMarkupSpace c then (.beforeAttribute tag, [])
  else if c == '>' then endTag tag
  else if c == '/' then (.slash tag, [])
  else (.attributeName tag (String.singleton (nameChar c)), [])

def stepTagName (tag : OpenTag) (c : Char) : Move :=
  if isMarkupSpace c then (.beforeAttribute tag, [])
  else if c == '>' then endTag tag
  else if c == '/' then (.slash tag, [])
  else (.tagName { tag with name := tag.name.push (nameChar c) }, [])

def stepAttributeName (tag : OpenTag) (name : String) (c : Char) : Move :=
  if c == '=' then (.beforeValue tag name, [])
  else if c == '>' then endTag (tag.add name "")
  else if isMarkupSpace c then (.afterAttributeName tag name, [])
  else if c == '/' then (.slash (tag.add name ""), [])
  else (.attributeName tag (name.push (nameChar c)), [])

/-- A step after the name of an attribute that may still get a value. -/
def stepAfterAttributeName (tag : OpenTag) (name : String) (c : Char) : Move :=
  if isMarkupSpace c then (.afterAttributeName tag name, [])
  else if c == '=' then (.beforeValue tag name, [])
  else if c == '>' then endTag (tag.add name "")
  else if c == '/' then (.slash (tag.add name ""), [])
  else (.attributeName (tag.add name "") (String.singleton (nameChar c)), [])

def stepValue (quote : Quote) (tag : OpenTag) (name value : String) (c : Char) : Move :=
  match quote with
  | .double =>
      if c == '"' then (.afterValue (tag.add name value), [])
      else if c == '&' then (.valueReference .double tag name value .opened, [])
      else (.value .double tag name (value.push (denull c)), [])
  | .single =>
      if c == '\'' then (.afterValue (tag.add name value), [])
      else if c == '&' then (.valueReference .single tag name value .opened, [])
      else (.value .single tag name (value.push (denull c)), [])
  | .bare =>
      if isMarkupSpace c then (.beforeAttribute (tag.add name value), [])
      else if c == '&' then (.valueReference .bare tag name value .opened, [])
      else if c == '>' then endTag (tag.add name value)
      else (.value .bare tag name (value.push (denull c)), [])

def stepBeforeValue (tag : OpenTag) (name : String) (c : Char) : Move :=
  if isMarkupSpace c then (.beforeValue tag name, [])
  else if c == '"' then (.value .double tag name "", [])
  else if c == '\'' then (.value .single tag name "", [])
  else if c == '>' then endTag (tag.add name "")
  else stepValue .bare tag name "" c

/-- A step in a reference that stands in an attribute value. -/
def stepValueReference (quote : Quote) (tag : OpenTag) (name value : String) (ref : Reference) (c : Char) : Move :=
  match ref.step true c with
  | .more next => (.valueReference quote tag name value next, [])
  | .overlong digits => (.value quote tag name value, [.overlong digits])
  | .done text true => (.value quote tag name (value ++ text), [])
  | .done text false => stepValue quote tag name (value ++ text) c

def stepAfterValue (tag : OpenTag) (c : Char) : Move := stepBeforeAttribute tag c

def stepSlash (tag : OpenTag) (c : Char) : Move :=
  if c == '>' then endTag { tag with selfClosing := true } else stepBeforeAttribute tag c

def stepTagOpen (c : Char) : Move :=
  if c == '!' then (.declaration "", [])
  else if c == '/' then (.endTagOpen, [])
  else if isLetter c then (.tagName { name := String.singleton (lowerChar c) }, [])
  else if c == '>' then (.text .data false, [.char '<', .char '>'])
  else if c == '?' then stepBogusComment "" c
  else (stepText .data false c).after [.char '<']

def stepEndTagOpen (c : Char) : Move :=
  if isLetter c then (.tagName { closing := true, name := String.singleton (lowerChar c) }, [])
  else if c == '>' then (.text .data false, [])
  else stepBogusComment "" c

/-- A step after an opening bracket and a bang: a comment, a document type, character data where the markup is foreign, and else a comment up to the next closing bracket. -/
def stepDeclaration (foreign : Bool) (seen : String) (c : Char) : Move :=
  let word := seen.push c
  if word == "--" then (.comment .start "", [])
  else if lower word == "doctype" then (.doctype .afterWord {}, [])
  else if foreign && word == "[CDATA[" then (.cdata 0, [])
  else if startsWith "--" word || startsWith "doctype" (lower word) || (foreign && startsWith "[CDATA[" word) then
    (.declaration word, [])
  else stepBogusComment seen c

def stepCdata (brackets : Nat) (c : Char) : Move :=
  if c == ']' then
    if brackets < 2 then (.cdata (brackets + 1), []) else (.cdata brackets, [.char ']'])
  else if c == '>' && brackets == 2 then (.text .data false, [])
  else (.cdata 0, List.replicate brackets (.char ']') ++ [.char (denull c)])

/-! ### Text that an end tag ends -/

/-- Whether an end tag of this name ends the text. -/
def ends (closer : Option String) (seen : String) : Bool :=
  closer == some (lower seen)

/-- The tag of an end tag that ends the text. -/
def closingTag (seen : String) : OpenTag := { closing := true, name := lower seen }

/-- A step in the name of a possible end tag; what turns out to be none is text, read on by `back`. -/
def stepClosing (closer : Option String) (again : String → State) (back : Char → Move) (seen : String) (c : Char) : Move :=
  if isMarkupSpace c && ends closer seen then (.beforeAttribute (closingTag seen), [])
  else if c == '/' && ends closer seen then (.slash (closingTag seen), [])
  else if c == '>' && ends closer seen then endTag (closingTag seen)
  else if isLetter c then (again (seen.push c), [])
  else (back c).after (Token.chars ("</" ++ seen))

/-- A step after an opening bracket in text that an end tag ends. -/
def stepRawLess (content : Content) (c : Char) : Move :=
  if c == '/' then (.rawEndOpen content, [])
  else
    match content with
    | .script closer =>
        if c == '!' then (.script closer .escapeStart, [.char '<', .char '!'])
        else (stepText content false c).after [.char '<']
    | _ => (stepText content false c).after [.char '<']

/-- A step after an opening bracket and a slash in text that an end tag ends. -/
def stepRawEndOpen (content : Content) (c : Char) : Move :=
  if isLetter c then (.rawEndName content (String.singleton c), [])
  else (stepText content false c).after (Token.chars "</")

/-- A step in the name of a possible end tag. -/
def stepRawEndName (content : Content) (seen : String) (c : Char) : Move :=
  stepClosing content.closer (.rawEndName content) (stepText content false) seen c

/-! ### Comments in scripts -/

def stepEscaped (closer : Option String) (c : Char) : Move :=
  if c == '-' then (.script closer .escapedDash, [.char '-'])
  else if c == '<' then (.script closer .escapedLess, [])
  else (.script closer .escaped, [.char (denull c)])

/-- A step where a script start tag hides end tags. -/
def stepDoubled (closer : Option String) (c : Char) : Move :=
  if c == '-' then (.script closer .doubledDash, [.char '-'])
  else if c == '<' then (.script closer .doubledLess, [.char '<'])
  else (.script closer .doubled, [.char (denull c)])

def endsName (c : Char) : Bool :=
  isMarkupSpace c || c == '/' || c == '>'

/-- A step in a comment of a script, wherever in it. -/
def stepScript (closer : Option String) (part : ScriptPart) (c : Char) : Move :=
  match part with
  | .escapeStart =>
      if c == '-' then (.script closer .escapeStartDash, [.char '-']) else stepText (.script closer) false c
  | .escapeStartDash =>
      if c == '-' then (.script closer .escapedDashes, [.char '-']) else stepText (.script closer) false c
  | .escaped => stepEscaped closer c
  | .escapedDash =>
      if c == '-' then (.script closer .escapedDashes, [.char '-']) else stepEscaped closer c
  | .escapedDashes =>
      if c == '-' then (.script closer .escapedDashes, [.char '-'])
      else if c == '>' then (.text (.script closer) true, [.char '>'])
      else stepEscaped closer c
  | .escapedLess =>
      if c == '/' then (.script closer .escapedEndOpen, [])
      else if isLetter c then (.script closer (.doubleStart (String.singleton c)), [.char '<', .char c])
      else (stepEscaped closer c).after [.char '<']
  | .escapedEndOpen =>
      if isLetter c then (.script closer (.escapedEndName (String.singleton c)), [])
      else (stepEscaped closer c).after (Token.chars "</")
  | .escapedEndName seen =>
      stepClosing closer (fun more => .script closer (.escapedEndName more)) (stepEscaped closer) seen c
  | .doubleStart seen =>
      if endsName c then (.script closer (if lower seen == "script" then .doubled else .escaped), [.char c])
      else if isLetter c then (.script closer (.doubleStart (seen.push c)), [.char c])
      else stepEscaped closer c
  | .doubled => stepDoubled closer c
  | .doubledDash =>
      if c == '-' then (.script closer .doubledDashes, [.char '-']) else stepDoubled closer c
  | .doubledDashes =>
      if c == '-' then (.script closer .doubledDashes, [.char '-'])
      else if c == '>' then (.text (.script closer) true, [.char '>'])
      else stepDoubled closer c
  | .doubledLess =>
      if c == '/' then (.script closer (.doubleEnd ""), [.char '/']) else stepDoubled closer c
  | .doubleEnd seen =>
      if endsName c then (.script closer (if lower seen == "script" then .escaped else .doubled), [.char c])
      else if isLetter c then (.script closer (.doubleEnd (seen.push c)), [.char c])
      else stepDoubled closer c

/-! ### All states -/

/-- Reads one character. Character data is known only where the markup around is `foreign`. -/
def step (foreign : Bool) (state : State) (c : Char) : Move :=
  match state with
  | .text content inRun => stepText content inRun c
  | .reference content ref => stepReference content ref c
  | .tagOpen => stepTagOpen c
  | .endTagOpen => stepEndTagOpen c
  | .tagName tag => stepTagName tag c
  | .beforeAttribute tag => stepBeforeAttribute tag c
  | .attributeName tag name => stepAttributeName tag name c
  | .afterAttributeName tag name => stepAfterAttributeName tag name c
  | .beforeValue tag name => stepBeforeValue tag name c
  | .value quote tag name value => stepValue quote tag name value c
  | .valueReference quote tag name value ref => stepValueReference quote tag name value ref c
  | .afterValue tag => stepAfterValue tag c
  | .slash tag => stepSlash tag c
  | .rawLess content => stepRawLess content c
  | .rawEndOpen content => stepRawEndOpen content c
  | .rawEndName content seen => stepRawEndName content seen c
  | .script closer part => stepScript closer part c
  | .declaration seen => stepDeclaration foreign seen c
  | .bogusComment data => stepBogusComment data c
  | .comment part data => stepComment part data c
  | .doctype part declaration => stepDoctype part declaration c
  | .cdata brackets => stepCdata brackets c

/-- The tokens of a reference that the end of the input cuts off. -/
def finishReference (inValue : Bool) (ref : Reference) : List Token :=
  match ref.finish inValue with
  | .done text _ => if inValue then [] else referenceTokens text
  | .overlong digits => [.overlong digits]
  | .more _ => []

/-- The tokens of what the end of the input cuts off. -/
def finish (state : State) : List Token :=
  match state with
  | .reference _ ref => finishReference false ref
  | .valueReference _ _ _ _ ref => finishReference true ref
  | .tagOpen => [.char '<']
  | .endTagOpen => Token.chars "</"
  | .rawLess _ => [.char '<']
  | .rawEndOpen _ => Token.chars "</"
  | .rawEndName _ seen => Token.chars ("</" ++ seen)
  | .script _ .escapedLess => [.char '<']
  | .script _ .escapedEndOpen => Token.chars "</"
  | .script _ (.escapedEndName seen) => Token.chars ("</" ++ seen)
  | .declaration seen => [.comment seen]
  | .bogusComment data => [.comment data]
  | .comment _ data => [.comment data]
  | .doctype .bogus declaration => [declaration.token]
  | .doctype _ declaration => [({ declaration with correct := false } : Declaration).token]
  | .cdata brackets => List.replicate brackets (.char ']')
  | _ => []

end HtmlLayout.Html.Lexer
