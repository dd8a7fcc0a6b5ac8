import HtmlLayout.Text.Ascii

/-!
# Encodings declared in a content attribute

The value of a content attribute declares an encoding after the word `charset` and an equals sign:
up to the matching quote if it is quoted, and up to the next blank otherwise.
-/

namespace HtmlLayout.Encoding

open Text

/-- What follows the first occurrence of a word. -/
def afterWord (word : List Char) : List Char → Option (List Char)
  | [] => none
  | c :: rest =>
      if word.isPrefixOf (c :: rest) then some ((c :: rest).drop word.length) else afterWord word rest

/-- The text up to a quote, if there is one. -/
def upToQuote (quote : Char) (text : List Char) : Option (List Char) :=
  if text.contains quote then some (text.takeWhile (· != quote)) else none

/-- The name of the encoding that a content attribute declares, in lower case. -/
def charsetIn (content : String) : Option String :=
  match afterWord "charset".toList (content.toList.map lowerChar) with
  | none => none
  | some rest =>
      match rest.dropWhile isMarkupSpace with
      | '=' :: value =>
          match value.dropWhile isMarkupSpace with
          | [] => none
          | '"' :: quoted => (upToQuote '"' quoted).map String.ofList
          | '\'' :: quoted => (upToQuote '\'' quoted).map String.ofList
          | bare => some (String.ofList (bare.takeWhile fun c => !isMarkupSpace c))
      | _ => none

end HtmlLayout.Encoding
