import HtmlLayout.Proofs.Rules

/-!
# Where the names of start tags come from

A start tag is called what the text says after an opening bracket, letter by letter and in lower
case. So a text in which a word never follows a bracket gives no start tag of that name, whatever
the lexer goes through on the way. What a lexer that stands in the midst of a tag needs to know of
the text ahead is stated for its state, and each step hands it on.
-/

namespace HtmlLayout.Html

/-- The names of the start tags among some tokens. -/
@[simp]
def startNames : List Token → List String
  | [] => []
  | .startTag tag :: rest => tag.name :: startNames rest
  | _ :: rest => startNames rest

theorem name_mem_startNames {tokens : List Token} {tag : StartTag}
    (htag : .startTag tag ∈ tokens) : tag.name ∈ startNames tokens := by
  fun_induction startNames tokens with
  | case1 => simp at htag
  | case2 other rest ih =>
      obtain hsame | hrest := List.mem_cons.mp htag
      · cases hsame
        exact List.mem_cons_self
      · exact List.mem_cons_of_mem _ (ih hrest)
  | case3 token rest hother ih =>
      obtain hsame | hrest := List.mem_cons.mp htag
      · exact absurd hsame.symm (hother tag)
      · exact ih hrest

@[simp]
theorem startNames_append (tokens others : List Token) :
    startNames (tokens ++ others) = startNames tokens ++ startNames others := by
  fun_induction startNames tokens <;> simp_all

@[simp]
theorem startNames_map_char (text : List Char) : startNames (text.map .char) = [] := by
  induction text <;> simp_all

@[simp]
theorem startNames_replicate_char (count : Nat) (c : Char) :
    startNames (List.replicate count (.char c)) = [] := by
  induction count <;> simp_all [List.replicate_succ]

namespace Lexer

open Text

variable {word rest : List Char} {c : Char}

@[simp]
theorem startNames_chars (text : String) : startNames (Token.chars text) = [] :=
  startNames_map_char _

@[simp]
theorem startNames_referenceTokens (text : String) : startNames (referenceTokens text) = [] := by
  unfold referenceTokens
  split
  · split <;> simp
  · simp

/-- A tag that is no start tag called `word`. -/
def OpenTag.Avoids (word : List Char) (tag : OpenTag) : Prop :=
  tag.closing = true ∨ tag.name.toList ≠ word

/-- No start tag called `word` is being read, if `rest` is what follows. -/
def State.Avoids (word rest : List Char) : State → Prop
  | .tagOpen => ¬ word <+: rest.map nameChar
  | .tagName tag => tag.closing = true ∨ ¬ word <+: tag.name.toList ++ rest.map nameChar
  | .beforeAttribute tag => tag.Avoids word
  | .attributeName tag _ => tag.Avoids word
  | .afterAttributeName tag _ => tag.Avoids word
  | .beforeValue tag _ => tag.Avoids word
  | .value _ tag _ _ => tag.Avoids word
  | .valueReference _ tag _ _ _ => tag.Avoids word
  | .afterValue tag => tag.Avoids word
  | .slash tag => tag.Avoids word
  | _ => True

/-- A move without a start tag called `word` in its tokens, and on the way to none. -/
structure Move.Avoids (word rest : List Char) (move : Move) : Prop where
  state : move.1.Avoids word rest
  tokens : ∀ name ∈ startNames move.2, name.toList ≠ word

/-! ### Parts of a step -/

@[simp]
theorem Move.avoids_iff {state : State} {tokens : List Token} :
    Move.Avoids word rest (state, tokens) ↔
      state.Avoids word rest ∧ ∀ name ∈ startNames tokens, name.toList ≠ word :=
  ⟨fun h => ⟨h.state, h.tokens⟩, fun h => ⟨h.1, h.2⟩⟩

@[simp]
theorem Move.avoids_ite {condition : Prop} [Decidable condition] {yes no : Move} :
    Move.Avoids word rest (if condition then yes else no) ↔
      (condition → yes.Avoids word rest) ∧ (¬ condition → no.Avoids word rest) := by
  split <;> simp_all

@[simp]
theorem Move.avoids_after {move : Move} {tokens : List Token} :
    (move.after tokens).Avoids word rest ↔
      (∀ name ∈ startNames tokens, name.toList ≠ word) ∧ move.Avoids word rest := by
  obtain ⟨state, others⟩ := move
  simp only [Move.after, Move.avoids_iff, startNames_append, List.forall_mem_append]
  exact and_left_comm

@[simp]
theorem OpenTag.avoids_add {tag : OpenTag} {name value : String} :
    (tag.add name value).Avoids word ↔ tag.Avoids word := by
  unfold OpenTag.add
  split <;> rfl

/-- The token of a tag that is complete. -/
theorem avoids_endTag {tag : OpenTag} (htag : tag.Avoids word) : (endTag tag).Avoids word rest := by
  refine ⟨trivial, fun name hname => ?_⟩
  by_cases hclosing : tag.closing = true
  · simp [endTag, OpenTag.token, hclosing] at hname
  · obtain rfl : name = tag.name := by simpa [endTag, OpenTag.token, hclosing] using hname
    exact htag.resolve_left hclosing

/-! ### Steps outside of tags -/

/-- Text gives way to a tag only at a bracket, and then the word does not follow. -/
theorem avoids_stepText (hopen : c = '<' → ¬ word <+: rest.map nameChar) (content : Content)
    (inRun : Bool) : (stepText content inRun c).Avoids word rest := by
  cases content <;> simp +contextual [stepText, stretch, State.Avoids, hopen]

theorem avoids_stepReference (hopen : c = '<' → ¬ word <+: rest.map nameChar) (content : Content)
    (ref : Reference) : (stepReference content ref c).Avoids word rest := by
  unfold stepReference
  split <;> simp [State.Avoids, avoids_stepText hopen]

theorem avoids_stepBogusComment (data : String) : (stepBogusComment data c).Avoids word rest := by
  simp [stepBogusComment, endComment, State.Avoids]

theorem avoids_stepComment (part : CommentPart) (data : String) :
    (stepComment part data c).Avoids word rest := by
  cases part <;> simp [stepComment, endComment, State.Avoids]

theorem avoids_stepDoctype (part : DoctypePart) (declaration : Declaration) :
    (stepDoctype part declaration c).Avoids word rest := by
  cases part <;>
    simp [stepDoctype, stepBeforeName, stepKeyword, stepBeforePublic, stepBeforeSystem, stepBetween,
      stepBogusDoctype, spoilDoctype, breakDoctype, endDoctype, Declaration.token, State.Avoids]

theorem avoids_stepDeclaration (foreign : Bool) (seen : String) :
    (stepDeclaration foreign seen c).Avoids word rest := by
  simp [stepDeclaration, State.Avoids, avoids_stepBogusComment]

theorem avoids_stepCdata (brackets : Nat) : (stepCdata brackets c).Avoids word rest := by
  simp [stepCdata, State.Avoids]

/-- In text that only an end tag ends, no start tag is read. -/
theorem avoids_stepClosing {closer : Option String} {again : String → State} {back : Char → Move}
    (seen : String) (hagain : ∀ more, (again more).Avoids word rest)
    (hback : (back c).Avoids word rest) :
    (stepClosing closer again back seen c).Avoids word rest := by
  have hclosing : (closingTag seen).Avoids word := .inl rfl
  simp only [stepClosing, Move.avoids_ite, Move.avoids_iff, hagain, avoids_endTag hclosing]
  simp [State.Avoids, hclosing, hback]

theorem avoids_stepRawLess (hopen : c = '<' → ¬ word <+: rest.map nameChar) (content : Content) :
    (stepRawLess content c).Avoids word rest := by
  cases content <;> simp [stepRawLess, State.Avoids, avoids_stepText hopen]

theorem avoids_stepScript (hopen : c = '<' → ¬ word <+: rest.map nameChar) (closer : Option String)
    (part : ScriptPart) : (stepScript closer part c).Avoids word rest := by
  have hescaped : (stepEscaped closer c).Avoids word rest := by simp [stepEscaped, State.Avoids]
  cases part with
  | escapedEndName seen =>
      have hagain : ∀ more, State.Avoids word rest (.script closer (.escapedEndName more)) :=
        fun _ => trivial
      exact avoids_stepClosing seen hagain hescaped
  | _ => simp [stepScript, stepDoubled, State.Avoids, avoids_stepText hopen, hescaped]

/-! ### Steps in tags -/

theorem avoids_stepBeforeAttribute {tag : OpenTag} (htag : tag.Avoids word) :
    (stepBeforeAttribute tag c).Avoids word rest := by
  simp [stepBeforeAttribute, State.Avoids, avoids_endTag, htag]

theorem avoids_stepValue (quote : Quote) {tag : OpenTag} (htag : tag.Avoids word)
    (name value : String) : (stepValue quote tag name value c).Avoids word rest := by
  cases quote <;> simp [stepValue, State.Avoids, avoids_endTag, htag]

theorem avoids_stepValueReference (quote : Quote) {tag : OpenTag} (htag : tag.Avoids word)
    (name value : String) (ref : Reference) :
    (stepValueReference quote tag name value ref c).Avoids word rest := by
  unfold stepValueReference
  split <;> simp [State.Avoids, avoids_stepValue _ htag, htag]

/-- A tag that starts is called as the text goes on. -/
theorem avoids_stepTagOpen (hopen : c = '<' → ¬ word <+: rest.map nameChar)
    (hstate : ¬ word <+: (c :: rest).map nameChar) : (stepTagOpen c).Avoids word rest := by
  have hname : isLetter c = true → ¬ word <+: lowerChar c :: rest.map nameChar := by
    intro hletter
    have hc : denull c = c := by
      apply if_neg
      rintro hnull
      simp [eq_of_beq hnull, isLetter] at hletter
    rwa [List.map_cons, nameChar, hc] at hstate
  simp only [stepTagOpen, Move.avoids_ite]
  simp +contextual [State.Avoids, hname, avoids_stepText hopen, avoids_stepBogusComment]

/-- A name that goes on is made of what has been read, and one that ends is not the word. -/
theorem avoids_stepTagName {tag : OpenTag}
    (hstate : tag.closing = true ∨ ¬ word <+: tag.name.toList ++ (c :: rest).map nameChar) :
    (stepTagName tag c).Avoids word rest := by
  have htag : tag.Avoids word := by
    refine hstate.imp_right fun hahead hname => ?_
    rw [hname] at hahead
    exact hahead (List.prefix_append ..)
  have hmore : tag.closing = true ∨
      ¬ word <+: (tag.name.push (nameChar c)).toList ++ rest.map nameChar := by
    simpa using hstate
  unfold stepTagName
  split
  · exact ⟨htag, by simp⟩
  split
  · exact avoids_endTag htag
  split
  · exact ⟨htag, by simp⟩
  · exact ⟨hmore, by simp⟩

/-! ### All states -/

/-- If the word does not follow a bracket that is read now, a step reads no start tag of that name. -/
theorem avoids_step (foreign : Bool) {state : State} (hstate : state.Avoids word (c :: rest))
    (hopen : c = '<' → ¬ word <+: rest.map nameChar) : (step foreign state c).Avoids word rest := by
  cases state with
  | text content inRun => exact avoids_stepText hopen content inRun
  | reference content ref => exact avoids_stepReference hopen content ref
  | tagOpen => exact avoids_stepTagOpen hopen hstate
  | endTagOpen => simp [step, stepEndTagOpen, State.Avoids, avoids_stepBogusComment]
  | tagName tag => exact avoids_stepTagName hstate
  | beforeAttribute tag => exact avoids_stepBeforeAttribute hstate
  | attributeName tag name =>
      have htag : tag.Avoids word := hstate
      simp [step, stepAttributeName, State.Avoids, avoids_endTag, htag]
  | afterAttributeName tag name =>
      have htag : tag.Avoids word := hstate
      simp [step, stepAfterAttributeName, State.Avoids, avoids_endTag, htag]
  | beforeValue tag name =>
      have htag : tag.Avoids word := hstate
      simp [step, stepBeforeValue, State.Avoids, avoids_endTag, avoids_stepValue, htag]
  | value quote tag name value => exact avoids_stepValue quote hstate name value
  | valueReference quote tag name value ref =>
      exact avoids_stepValueReference quote hstate name value ref
  | afterValue tag => exact avoids_stepBeforeAttribute hstate
  | slash tag =>
      have htag : tag.Avoids word := hstate
      have hself : ({ tag with selfClosing := true } : OpenTag).Avoids word := hstate
      simp [step, stepSlash, avoids_endTag hself, avoids_stepBeforeAttribute htag]
  | rawLess content => exact avoids_stepRawLess hopen content
  | rawEndOpen content =>
      simp [step, stepRawEndOpen, State.Avoids, avoids_stepText hopen]
  | rawEndName content seen =>
      have hagain : ∀ more, State.Avoids word rest (.rawEndName content more) := fun _ => trivial
      exact avoids_stepClosing seen hagain (avoids_stepText hopen content false)
  | script closer part => exact avoids_stepScript hopen closer part
  | declaration seen => exact avoids_stepDeclaration foreign seen
  | bogusComment data => exact avoids_stepBogusComment data
  | comment part data => exact avoids_stepComment part data
  | doctype part declaration => exact avoids_stepDoctype part declaration
  | cdata brackets => exact avoids_stepCdata brackets

/-- A tag that the end of the text cuts off is dropped. -/
theorem startNames_finish (state : State) : startNames (finish state) = [] := by
  have hreference : ∀ inValue ref, startNames (finishReference inValue ref) = [] := by
    intro inValue ref
    unfold finishReference
    split
    · split <;> simp
    all_goals simp
  unfold finish
  split <;> simp [hreference, Declaration.token]

end Lexer

namespace Parser

variable {p : Parser}

/-- A parser that has read no declared encoding and does not stand before one. A parser that has
given up reads nothing more. -/
structure Undeclared (rest : List Char) (p : Parser) : Prop where
  state : p.overlong = none → p.state.Avoids "meta".toList rest
  charsets : p.assembly.charsets = []

theorem Undeclared.take {rest : List Char} (h : p.Undeclared rest) {token : Token}
    (htoken : ∀ tag, token = .startTag tag → tag.name ≠ "meta") :
    (p.take token).Undeclared rest := by
  have htaken := p.assembly.charsets_take htoken
  unfold Parser.take
  split
  · exact h
  split
  · exact ⟨by simp, h.charsets⟩
  · dsimp only
    split
    -- The token has told how the text goes on, and it goes on outside of tags.
    · exact ⟨fun _ => trivial, htaken.trans h.charsets⟩
    · exact ⟨h.state, htaken.trans h.charsets⟩

theorem Undeclared.takeAll {rest : List Char} (h : p.Undeclared rest) {tokens : List Token}
    (htokens : ∀ name ∈ startNames tokens, name.toList ≠ "meta".toList) :
    (tokens.foldl Parser.take p).Undeclared rest := by
  have hmeta : ∀ token ∈ tokens, ∀ tag, token = .startTag tag → tag.name ≠ "meta" := by
    rintro token htoken tag rfl hname
    exact htokens tag.name (name_mem_startNames htoken) (congrArg String.toList hname)
  clear htokens
  induction tokens generalizing p with
  | nil => exact h
  | cons token tokens ih =>
      have htaken := h.take (hmeta token List.mem_cons_self)
      exact ih htaken fun other hother => hmeta other (List.mem_cons_of_mem _ hother)

theorem Undeclared.step {c : Char} {rest : List Char} (h : p.Undeclared (c :: rest))
    (htext : ¬ "<meta".toList <+: (c :: rest).map Lexer.nameChar) : (p.step c).Undeclared rest := by
  have hopen : c = '<' → ¬ "meta".toList <+: rest.map Lexer.nameChar := by
    rintro rfl hahead
    exact htext (List.cons_prefix_cons.mpr ⟨rfl, hahead⟩)
  unfold Parser.step
  by_cases hoverlong : p.overlong = none
  · have hmove := Lexer.avoids_step p.assembly.inForeign (h.state hoverlong) hopen
    have hmoved : Undeclared rest
        { p with state := (Lexer.step p.assembly.inForeign p.state c).1 } :=
      ⟨fun _ => hmove.state, h.charsets⟩
    rw [if_neg (by simp [hoverlong])]
    exact hmoved.takeAll hmove.tokens
  · rw [if_pos (Option.isSome_iff_ne_none.mpr hoverlong)]
    exact ⟨fun hnone => absurd hnone hoverlong, h.charsets⟩

theorem Undeclared.feed {text : List Char} (h : p.Undeclared text)
    (htext : ¬ "<meta".toList <:+: text.map Lexer.nameChar) : (p.feed text).Undeclared [] := by
  induction text generalizing p with
  | nil => exact h
  | cons c text ih =>
      rw [List.map_cons, List.infix_cons_iff, not_or] at htext
      exact ih (h.step htext.1) htext.2

/-- A text that nowhere says `<meta`, in whatever case, declares no encoding. -/
theorem Undeclared.charsets_finish_feed {text : List Char} (h : p.Undeclared text)
    (htext : ¬ "<meta".toList <:+: text.map Lexer.nameChar) :
    (p.feed text).finish.assembly.charsets = [] := by
  have hlast : ((Lexer.finish (p.feed text).state).foldl Parser.take (p.feed text)).Undeclared [] := by
    apply (h.feed htext).takeAll
    rw [Lexer.startNames_finish]
    simp
  unfold Parser.finish
  dsimp only
  split
  · exact hlast.charsets
  · exact (Assembly.charsets_finish _).trans hlast.charsets

end Parser

end HtmlLayout.Html
