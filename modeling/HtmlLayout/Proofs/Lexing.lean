import HtmlLayout.Html.Parser
import HtmlLayout.Proofs.Spelling

/-!
# Reading written signs

The lexer reads back the signs that a tree is written with. On the way through a sign it completes
no token; with the last character of the sign it completes one, and it is back in the text. So a
parser that reads a written sign takes one token, in whatever way the assembly then goes on.

The references that special characters are written as are read by running the table of names on
them. All else follows from the class of the characters in a name, a value or a comment.
-/

namespace HtmlLayout

namespace Text

def isLower (c : Char) : Bool := 'a' ≤ c && c ≤ 'z'

/-- A name of ASCII letters in lower case. -/
def isWord (name : String) : Bool := name != "" && name.toList.all isLower

theorem isLower_bounds {c : Char} (hc : isLower c = true) : 97 ≤ c.toNat ∧ c.toNat ≤ 122 := by
  obtain ⟨hlow, hhigh⟩ := Bool.and_eq_true_iff.mp hc
  exact ⟨of_decide_eq_true hlow, of_decide_eq_true hhigh⟩

theorem isLetter_of_isLower {c : Char} (hc : isLower c = true) : isLetter c = true := by
  rw [isLetter, Bool.or_eq_true]
  exact .inl hc

theorem ne_of_isLower {c : Char} (hc : isLower c = true) {d : Char} (hd : isLower d = false) :
    c ≠ d := by
  rintro rfl
  exact Bool.false_ne_true (hd.symm.trans hc)

theorem isMarkupSpace_of_isLower {c : Char} (hc : isLower c = true) : isMarkupSpace c = false := by
  have hne : ∀ d, isLower d = false → (c == d) = false :=
      fun d hd => beq_false_of_ne (ne_of_isLower hc hd)
  simp [isMarkupSpace, hne ' ' rfl, hne '\n' rfl, hne '\t' rfl, hne '\r' rfl, hne '\x0c' rfl]

theorem lowerChar_of_isLower {c : Char} (hc : isLower c = true) : lowerChar c = c := by
  have hbounds := isLower_bounds hc
  have hnot : ¬c ≤ 'Z' := by
    intro hle
    have hnat : c.toNat ≤ 90 := hle
    omega
  simp [lowerChar, hnot]

theorem isWord_iff {name : String} :
    isWord name = true ↔ ∃ c rest, name.toList = c :: rest ∧ isLower c = true ∧
    ∀ d ∈ rest, isLower d = true := by
  unfold isWord
  cases hname : name.toList with
  | nil => simp [String.toList_eq_nil_iff.mp hname]
  | cons c rest =>
      have hne : name ≠ "" := by
        rintro rfl
        simp at hname
      simp [hne]

theorem not_mem_of_isWord {name : String} (hname : isWord name = true) {c : Char}
    (hc : isLower c = false) : c ∉ name.toList := by
  intro hmem
  have hall := (Bool.and_eq_true_iff.mp hname).2
  exact Bool.false_ne_true (hc.symm.trans (List.all_eq_true.mp hall c hmem))

end Text

/-- An attribute that is read as it is written: its key is a word, it has no qualifier, and its
value holds no null. -/
structure Attribute.Simple (attr : Attribute) : Prop where
  key : Text.isWord attr.key = true
  qualifier : attr.qualifier = ""
  value : '\x00' ∉ attr.value.toList

instance (attr : Attribute) : Decidable attr.Simple :=
  decidable_of_iff (Text.isWord attr.key = true ∧ attr.qualifier = "" ∧ '\x00' ∉ attr.value.toList)
    ⟨fun ⟨hkey, hqualifier, hvalue⟩ => ⟨hkey, hqualifier, hvalue⟩,
      fun ⟨hkey, hqualifier, hvalue⟩ => ⟨hkey, hqualifier, hvalue⟩⟩

/-- Attributes that are read as they are written, no two of one key. -/
structure Attribute.AllSimple (attrs : List Attribute) : Prop where
  each : ∀ attr ∈ attrs, attr.Simple
  distinct : (attrs.map Attribute.key).Nodup

instance (attrs : List Attribute) : Decidable (Attribute.AllSimple attrs) :=
  decidable_of_iff ((∀ attr ∈ attrs, attr.Simple) ∧ (attrs.map Attribute.key).Nodup)
    ⟨fun ⟨heach, hdistinct⟩ => ⟨heach, hdistinct⟩,
      fun ⟨heach, hdistinct⟩ => ⟨heach, hdistinct⟩⟩

namespace Html

/-! ### Silent steps -/

namespace Lexer

/-- Characters lead from one state to another without completing a token. -/
inductive Glides : State → List Char → State → Prop where
  | refl (state : State) : Glides state [] state
  | cons {state middle last : State} {c : Char} {rest : List Char}
    (hstep : step false state c = (middle, []))
      (hrest : Glides middle rest last) : Glides state (c :: rest) last

theorem Glides.single {state last : State} {c : Char} (hstep : step false state c = (last, [])) :
    Glides state [c] last :=
  .cons hstep (.refl last)

theorem Glides.trans {state middle last : State} {first rest : List Char}
    (hfirst : Glides state first middle)
    (hrest : Glides middle rest last) : Glides state (first ++ rest) last := by
  induction hfirst with
  | refl state => exact hrest
  | cons hstep _ ih => exact .cons hstep (ih hrest)

/-- Characters lead from one state to another, and the last of them completes a token. -/
def Reads (state : State) (text : List Char) (last : State) (token : Token) : Prop :=
  ∃ front middle c, text = front ++ [c] ∧ Glides state front middle ∧
    step false middle c = (last, [token])

theorem Glides.reads {state middle last : State} {first rest : List Char} {token : Token}
    (hfirst : Glides state first middle)
    (hrest : Reads middle rest last token) : Reads state (first ++ rest) last token := by
  obtain ⟨front, near, c, rfl, hfront, hstep⟩ := hrest
  exact ⟨first ++ front, near, c, by simp, hfirst.trans hfront, hstep⟩

theorem Reads.single {state last : State} {c : Char} {token : Token}
    (hstep : step false state c = (last, [token])) :
    Reads state [c] last token :=
  ⟨[], state, c, rfl, .refl state, hstep⟩

end Lexer

namespace Parser

theorem feed_of_glides {p : Parser} (hoverlong : p.overlong = none)
    (hforeign : p.assembly.inForeign = false)
    {text : List Char} {last : Lexer.State} (hglides : Lexer.Glides p.state text last) :
    p.feed text = { p with state := last } := by
  obtain ⟨state, assembly, overlong⟩ := p
  change Lexer.Glides state text last at hglides
  induction hglides with
  | refl state => rfl
  | @cons state middle last c rest hstep _ ih =>
      have hfirst : step { state, assembly, overlong } c = { state := middle, assembly, overlong } := by
        simp_all [step]
      rw [feed, List.foldl_cons, hfirst]
      exact ih hoverlong hforeign

theorem feed_append (p : Parser) (first rest : List Char) :
    p.feed (first ++ rest) = (p.feed first).feed rest :=
  List.foldl_append

/-- A parser that reads characters of which the last completes a token takes that token. -/
theorem feed_of_reads {p : Parser} (hoverlong : p.overlong = none)
    (hforeign : p.assembly.inForeign = false)
    {text : List Char} {last : Lexer.State} {token : Token}
    (hreads : Lexer.Reads p.state text last token) :
    p.feed text = take { p with state := last } token := by
  obtain ⟨front, middle, c, rfl, hglides, hstep⟩ := hreads
  rw [feed_append, feed_of_glides hoverlong hforeign hglides]
  simp [feed, step, hoverlong, hforeign, hstep]

end Parser

/-! ### References -/

namespace Reference

/-- What the characters after an ampersand stand for, if they are used up when that is settled. -/
def outcome (inValue : Bool) : Reference → List Char → Option String
  | _, [] => none
  | ref, c :: rest =>
      match ref.step inValue c with
      | .more next => outcome inValue next rest
      | .done text true => if rest = [] then some text else none
      | _ => none

/-- What a special character is written as stands for that character. -/
theorem outcome_escapeChar (inValue : Bool) {c : Char} (hc : Text.escapeChar c ≠ [c]) :
    ∃ name, Text.escapeChar c = '&' :: name ∧
      outcome inValue .opened name = some (String.singleton c) := by
  unfold Text.escapeChar at hc ⊢
  split
  · next hamp => exact ⟨_, rfl, by rw [hamp]; cases inValue <;> decide +kernel⟩
  · split
    · next hless => exact ⟨_, rfl, by rw [hless]; cases inValue <;> decide +kernel⟩
    · split
      · next hgreater => exact ⟨_, rfl, by rw [hgreater]; cases inValue <;> decide +kernel⟩
      · split
        · next hquote => exact ⟨_, rfl, by rw [hquote]; cases inValue <;> decide +kernel⟩
        · simp_all

end Reference

namespace Lexer

theorem reads_reference {ref : Reference} {name : List Char} {c : Char}
    (hc : Text.isMarkupSpace c = false)
    (houtcome : ref.outcome false name = some (String.singleton c)) :
    Reads (.reference .data ref) name (.text .data false) (.char c) := by
  induction name generalizing ref with
  | nil => simp [Reference.outcome] at houtcome
  | cons d rest ih =>
      rw [Reference.outcome] at houtcome
      split at houtcome
      · next next hmore =>
          exact Glides.reads (.single (by simp [step, stepReference, hmore])) (ih houtcome)
      · next text hdone =>
          split at houtcome
          · next hrest =>
              obtain rfl := Option.some.inj houtcome
              subst hrest
              exact .single (by simp [step, stepReference, hdone, referenceTokens, hc])
          · simp at houtcome
      · simp at houtcome

theorem glides_valueReference {ref : Reference} {name : List Char} {text : String} (tag : OpenTag)
    (key value : String) (houtcome : ref.outcome true name = some text) :
    Glides (.valueReference .double tag key value ref) name
    (.value .double tag key (value ++ text)) := by
  induction name generalizing ref with
  | nil => simp [Reference.outcome] at houtcome
  | cons d rest ih =>
      rw [Reference.outcome] at houtcome
      split at houtcome
      · next next hmore => exact .cons (by simp [step, stepValueReference, hmore]) (ih houtcome)
      · next found hdone =>
          split at houtcome
          · next hrest =>
              obtain rfl := Option.some.inj houtcome
              subst hrest
              exact .single (by simp [step, stepValueReference, hdone])
          · simp at houtcome
      · simp at houtcome

/-! ### Text -/

/-- A character that starts neither a tag nor a reference is read as it is. -/
theorem reads_plain {c : Char} (hless : c ≠ '<') (hamp : c ≠ '&') (hnull : c ≠ '\x00') (inRun : Bool) :
    ∃ running token, Reads (.text .data inRun) [c] (.text .data running) token ∧
      (token = .char c ∨ token = .space c) := by
  cases hblank : !inRun && Text.isMarkupSpace c with
  | true =>
      exact ⟨false, .space c,
          .single (by simp [step, stepText, stretch, hless, hamp, hnull, hblank]), .inr rfl⟩
  | false =>
      exact ⟨true, .char c,
          .single (by simp [step, stepText, stretch, hless, hamp, hnull, hblank]), .inl rfl⟩

theorem reads_char {c : Char} (hc : c ≠ '\x00') (inRun : Bool) :
    ∃ running token, Reads (.text .data inRun) (Text.escapeChar c) (.text .data running) token ∧
      (token = .char c ∨ token = .space c) := by
  by_cases hplain : Text.escapeChar c = [c]
  · obtain ⟨hless, hamp⟩ : c ≠ '<' ∧ c ≠ '&' := by
      constructor
      all_goals
        rintro rfl
        simp [Text.escapeChar] at hplain
    rw [hplain]
    exact reads_plain hless hamp hc inRun
  · obtain ⟨name, hname, houtcome⟩ := Reference.outcome_escapeChar false hplain
    have hspace : Text.isMarkupSpace c = false := by
      unfold Text.escapeChar at hplain
      grind [Text.isMarkupSpace]
    rw [hname]
    exact ⟨false, .char c, Glides.reads (.single rfl) (reads_reference hspace houtcome), .inl rfl⟩

/-! ### Tags -/

theorem nameChar_of_isLower {c : Char} (hc : Text.isLower c = true) : nameChar c = c := by
  have hnull : (c == '\x00') = false := beq_false_of_ne (Text.ne_of_isLower hc rfl)
  simp [nameChar, denull, hnull, Text.lowerChar_of_isLower hc]

theorem glides_tagName {letters : List Char} (hletters : ∀ c ∈ letters, Text.isLower c = true)
    (tag : OpenTag) :
    Glides (.tagName tag) letters
      (.tagName { tag with name := tag.name ++ String.ofList letters }) := by
  induction letters generalizing tag with
  | nil => simpa using Glides.refl (.tagName tag)
  | cons c rest ih =>
      obtain ⟨hc, hrest⟩ := List.forall_mem_cons.mp hletters
      have hne : ∀ d, Text.isLower d = false → (c == d) = false :=
          fun d hd => beq_false_of_ne (Text.ne_of_isLower hc hd)
      have hpush : tag.name ++ String.ofList (c :: rest) = tag.name.push c ++ String.ofList rest := by
        simp [← String.toList_inj]
      rw [hpush]
      refine .cons ?_ (ih hrest { tag with name := tag.name.push c })
      simp [step, stepTagName, Text.isMarkupSpace_of_isLower hc, hne '>' rfl, hne '/' rfl,
          nameChar_of_isLower hc]

theorem glides_startTagName {name : String} (hname : Text.isWord name = true) (inRun : Bool) :
    Glides (.text .data inRun) ('<' :: name.toList) (.tagName { name }) := by
  obtain ⟨c, rest, hchars, hc, hrest⟩ := Text.isWord_iff.mp hname
  have hne : ∀ d, Text.isLower d = false → (c == d) = false :=
      fun d hd => beq_false_of_ne (Text.ne_of_isLower hc hd)
  have hname : String.singleton c ++ String.ofList rest = name := by simp [← String.toList_inj, hchars]
  have htail := glides_tagName hrest { name := String.singleton c }
  rw [hname] at htail
  rw [hchars]
  refine .cons rfl (.cons ?_ htail)
  simp [step, stepTagOpen, hne '!' rfl, hne '/' rfl, Text.isLetter_of_isLower hc,
      Text.lowerChar_of_isLower hc]

theorem reads_endTag {name : String} (hname : Text.isWord name = true) (inRun : Bool) :
    Reads (.text .data inRun) (Node.endTag name).toList (.text .data false) (.endTag name) := by
  obtain ⟨c, rest, hchars, hc, hrest⟩ := Text.isWord_iff.mp hname
  have hname : String.singleton c ++ String.ofList rest = name := by simp [← String.toList_inj, hchars]
  have htail := glides_tagName hrest { closing := true, name := String.singleton c }
  rw [hname] at htail
  have hopen : Glides (.text .data inRun) ('<' :: '/' :: c :: rest)
      (.tagName { closing := true, name }) := by
    refine .cons rfl (.cons rfl (.cons ?_ htail))
    simp [step, stepEndTagOpen, Text.isLetter_of_isLower hc, Text.lowerChar_of_isLower hc]
  have hend : (Node.endTag name).toList = ('<' :: '/' :: c :: rest) ++ ['>'] := by
    simp [Node.endTag, hchars]
  rw [hend]
  exact hopen.reads (.single rfl)

theorem glides_attributeName {letters : List Char} (hletters : ∀ c ∈ letters, Text.isLower c = true)
    (tag : OpenTag) (name : String) :
    Glides (.attributeName tag name) letters (.attributeName tag (name ++ String.ofList letters)) := by
  induction letters generalizing name with
  | nil => simpa using Glides.refl (.attributeName tag name)
  | cons c rest ih =>
      obtain ⟨hc, hrest⟩ := List.forall_mem_cons.mp hletters
      have hne : ∀ d, Text.isLower d = false → (c == d) = false :=
          fun d hd => beq_false_of_ne (Text.ne_of_isLower hc hd)
      have hpush : name ++ String.ofList (c :: rest) = name.push c ++ String.ofList rest := by
        simp [← String.toList_inj]
      rw [hpush]
      refine .cons ?_ (ih hrest (name.push c))
      simp [step, stepAttributeName, Text.isMarkupSpace_of_isLower hc, hne '=' rfl, hne '>' rfl,
          hne '/' rfl, nameChar_of_isLower hc]

theorem glides_value {chars : List Char} (hchars : '\x00' ∉ chars) (tag : OpenTag)
    (key value : String) :
    Glides (.value .double tag key value) (chars.flatMap Text.escapeChar)
    (.value .double tag key (value ++ String.ofList chars)) := by
  induction chars generalizing value with
  | nil => simpa using Glides.refl (.value .double tag key value)
  | cons c rest ih =>
      obtain ⟨hnull, hrest⟩ : c ≠ '\x00' ∧ '\x00' ∉ rest := by simpa [eq_comm] using hchars
      have hpush : value ++ String.ofList (c :: rest) =
          value ++ String.singleton c ++ String.ofList rest := by
        simp [← String.toList_inj]
      rw [hpush, List.flatMap_cons]
      refine Glides.trans ?_ (ih hrest (value ++ String.singleton c))
      by_cases hplain : Text.escapeChar c = [c]
      · have hspecial : c ≠ '"' ∧ c ≠ '&' := by
          constructor
          all_goals
            rintro rfl
            simp [Text.escapeChar] at hplain
        rw [hplain]
        exact .single (by simp [step, stepValue, hspecial, denull, hnull])
      · obtain ⟨name, hname, houtcome⟩ := Reference.outcome_escapeChar true hplain
        rw [hname]
        exact .cons rfl (glides_valueReference tag key value houtcome)

/-- The states in a tag where an attribute, a slash or the end may follow. -/
def Between (tag : OpenTag) (state : State) : Prop := state = .tagName tag ∨ state = .afterValue tag

theorem glides_attribute {attr : Attribute} (hattr : attr.Simple) {tag : OpenTag} {state : State}
    (hstate : Between tag state) :
    Glides state attr.markup.toList (.afterValue (tag.add attr.key attr.value)) := by
  obtain ⟨c, rest, hchars, hc, hrest⟩ := Text.isWord_iff.mp hattr.key
  have hne : ∀ d, Text.isLower d = false → (c == d) = false :=
      fun d hd => beq_false_of_ne (Text.ne_of_isLower hc hd)
  have hname : String.singleton c ++ String.ofList rest = attr.key := by
    simp [← String.toList_inj, hchars]
  have hfirst : step false (.beforeAttribute tag) c =
      (.attributeName tag (String.singleton c), []) := by
    simp [step, stepBeforeAttribute, Text.isMarkupSpace_of_isLower hc, hne '>' rfl, hne '/' rfl,
        nameChar_of_isLower hc]
  have hletters := glides_attributeName hrest tag (String.singleton c)
  rw [hname] at hletters
  have hinside := glides_value hattr.value tag attr.key ""
  rw [String.ofList_toList, String.empty_append] at hinside
  have hquoted : Glides (.attributeName tag attr.key)
      ('=' :: '"' :: (attr.value.toList.flatMap Text.escapeChar ++ ['"']))
      (.afterValue (tag.add attr.key attr.value)) :=
    .cons rfl (.cons rfl (hinside.trans (.single rfl)))
  have hspace : step false state ' ' = (.beforeAttribute tag, []) := by
    rcases hstate with rfl | rfl <;> rfl
  rw [Attribute.toList_markup, Attribute.name, if_pos (by simpa using hattr.qualifier), hchars]
  exact .cons hspace (.cons hfirst (hletters.trans hquoted))

def entry (attr : Attribute) : String × String := (attr.key, attr.value)

theorem glides_attributes {attrs : List Attribute} (hattrs : Attribute.AllSimple attrs)
    {tag : OpenTag} {state : State}
    (hfresh : ∀ attr ∈ attrs, ∀ old ∈ tag.attrs, old.1 ≠ attr.key) (hstate : Between tag state) :
    ∃ last, Between { tag with attrs := (attrs.map entry).reverse ++ tag.attrs } last ∧
      Glides state (attrs.flatMap fun attr => attr.markup.toList) last := by
  induction attrs generalizing tag state with
  | nil => exact ⟨state, hstate, .refl state⟩
  | cons attr rest ih =>
      obtain ⟨⟨hattr, heach⟩, hkey, hdistinct⟩ :=
        And.intro (List.forall_mem_cons.mp hattrs.each) (List.nodup_cons.mp hattrs.distinct)
      obtain ⟨hnew, hlater⟩ := List.forall_mem_cons.mp hfresh
      have hadd : tag.add attr.key attr.value = { tag with attrs := entry attr :: tag.attrs } := by
        have hany : (tag.attrs.any fun old => old.1 == attr.key) = false := by simpa using hnew
        simp [OpenTag.add, hany, entry]
      have hstep := glides_attribute hattr hstate
      rw [hadd] at hstep
      have hrestFresh : ∀ next ∈ rest, ∀ old ∈ entry attr :: tag.attrs, old.1 ≠ next.key := by
        intro next hnext old hold
        rcases List.mem_cons.mp hold with rfl | hold
        · exact fun hsame : attr.key = next.key => hkey (hsame ▸ List.mem_map_of_mem hnext)
        · exact hlater next hnext old hold
      obtain ⟨last, hlast, hglides⟩ :=
          @ih ⟨heach, hdistinct⟩ { tag with attrs := entry attr :: tag.attrs } _ hrestFresh (.inr rfl)
      exact ⟨last, by simpa using hlast, hstep.trans hglides⟩

theorem glides_startTag {name : String} (hname : Text.isWord name = true) {attrs : List Attribute}
    (hattrs : Attribute.AllSimple attrs) (inRun : Bool) :
    ∃ last, Between { name, attrs := (attrs.map entry).reverse } last ∧
      Glides (.text .data inRun) (Node.startTag name attrs).toList last := by
  obtain ⟨last, hlast, hglides⟩ :=
      glides_attributes hattrs (by simp) (.inl rfl : Between { name } (.tagName { name }))
  refine ⟨last, by simpa using hlast, ?_⟩
  rw [Node.toList_startTag]
  exact (glides_startTagName hname inRun).trans hglides

theorem reads_startTag {name : String} (hname : Text.isWord name = true) {attrs : List Attribute}
    (hattrs : Attribute.AllSimple attrs) (inRun : Bool) :
    Reads (.text .data inRun) ((Node.startTag name attrs).toList ++ ['>']) (.text .data false)
      (.startTag { name, attrs := attrs.map entry }) := by
  obtain ⟨last, hlast, hglides⟩ := glides_startTag hname hattrs inRun
  refine hglides.reads (.single ?_)
  rcases hlast with rfl | rfl <;>
    simp [step, stepTagName, stepAfterValue, stepBeforeAttribute, Text.isMarkupSpace, endTag,
        OpenTag.token]

theorem reads_emptyTag {name : String} (hname : Text.isWord name = true) {attrs : List Attribute}
    (hattrs : Attribute.AllSimple attrs) (inRun : Bool) :
    Reads (.text .data inRun) ((Node.startTag name attrs).toList ++ ['/', '>']) (.text .data false)
      (.startTag { name, attrs := attrs.map entry, selfClosing := true }) := by
  obtain ⟨last, hlast, hglides⟩ := glides_startTag hname hattrs inRun
  have hslash : step false last '/' = (.slash { name, attrs := (attrs.map entry).reverse }, []) := by
    rcases hlast with rfl | rfl <;> rfl
  refine hglides.reads (Glides.reads (.single hslash) (.single ?_))
  simp [step, stepSlash, endTag, OpenTag.token]

/-! ### Comments -/

def isSimpleComment (data : String) : Bool :=
  data.toList.all fun c => c != '-' && c != '>' && c != '\x00'

theorem glides_commentBody {chars : List Char} (hchars : ∀ c ∈ chars, c ≠ '-' ∧ c ≠ '\x00')
    (data : String) :
    Glides (.comment .body data) chars (.comment .body (data ++ String.ofList chars)) := by
  induction chars generalizing data with
  | nil => simpa using Glides.refl (.comment .body data)
  | cons c rest ih =>
      obtain ⟨⟨hdash, hnull⟩, hrest⟩ := List.forall_mem_cons.mp hchars
      have hpush : data ++ String.ofList (c :: rest) = data.push c ++ String.ofList rest := by
        simp [← String.toList_inj]
      rw [hpush]
      exact .cons (by simp [step, stepComment, hdash, denull, hnull]) (ih hrest (data.push c))

theorem reads_comment {data : String} (hdata : isSimpleComment data = true) (inRun : Bool) :
    Reads (.text .data inRun) (Node.commentMarkup data).toList (.text .data false) (.comment data) := by
  have hchars : ∀ c ∈ data.toList, c ≠ '-' ∧ c ≠ '>' ∧ c ≠ '\x00' := by
    simpa [isSimpleComment, and_assoc] using hdata
  have hopen : Glides (.text .data inRun) ['<', '!', '-', '-'] (.comment .start "") :=
    .cons rfl (.cons rfl (.cons rfl (.single rfl)))
  have hmarkup : (Node.commentMarkup data).toList =
      ['<', '!', '-', '-'] ++ (data.toList ++ ['-', '-', '>']) := by
    simp [Node.commentMarkup]
  rw [hmarkup]
  refine hopen.reads ?_
  cases hdataChars : data.toList with
  | nil =>
      rw [String.toList_eq_nil_iff.mp hdataChars]
      exact ⟨['-', '-'], .comment .endDashes "", '>', rfl, .cons rfl (.single rfl), rfl⟩
  | cons c rest =>
      rw [hdataChars] at hchars
      obtain ⟨⟨hdash, hgreater, hnull⟩, hrest⟩ := List.forall_mem_cons.mp hchars
      have hfirst : step false (.comment .start "") c = (.comment .body (String.singleton c), []) := by
        simp [step, stepComment, hdash, hgreater, hnull]
      have hbody :=
          glides_commentBody (fun d hd => ⟨(hrest d hd).1, (hrest d hd).2.2⟩) (String.singleton c)
      have hwhole : String.singleton c ++ String.ofList rest = data := by
        simp [← String.toList_inj, hdataChars]
      rw [hwhole] at hbody
      exact Glides.reads (.cons hfirst hbody)
        ⟨['-', '-'], .comment .endDashes data, '>', rfl, .cons rfl (.single rfl), rfl⟩

end Lexer

end Html

/-! ### Signs -/

namespace Sign

/-- A sign that is read as it is written. -/
def Simple : Sign → Prop
  | char c => c ≠ '\x00'
  | opening tag attrs => Text.isWord tag = true ∧ Attribute.AllSimple attrs
  | empty tag attrs => Text.isWord tag = true ∧ Attribute.AllSimple attrs
  | closing tag => Text.isWord tag = true
  | comment data => Html.Lexer.isSimpleComment data = true
  | raw _ _ _ => False

/-- The tokens that a sign may be read as. -/
def Tells : Sign → Html.Token → Prop
  | char c, token => token = .char c ∨ token = .space c
  | opening tag attrs, token => token = .startTag { name := tag, attrs := attrs.map Html.Lexer.entry }
  | empty tag attrs, token =>
      token = .startTag { name := tag, attrs := attrs.map Html.Lexer.entry, selfClosing := true }
  | closing tag, token => token = .endTag tag
  | comment data, token => token = .comment data
  | raw _ _ _, _ => False

/-- A written sign is read as one of its tokens. -/
theorem exists_reads {sign : Sign} (hsign : sign.Simple) (inRun : Bool) :
    ∃ running token, Html.Lexer.Reads (.text .data inRun) sign.spell (.text .data running) token ∧
      sign.Tells token := by
  cases sign with
  | char c => exact Html.Lexer.reads_char hsign inRun
  | opening tag attrs => exact ⟨false, _, Html.Lexer.reads_startTag hsign.1 hsign.2 inRun, rfl⟩
  | empty tag attrs => exact ⟨false, _, Html.Lexer.reads_emptyTag hsign.1 hsign.2 inRun, rfl⟩
  | closing tag => exact ⟨false, _, Html.Lexer.reads_endTag hsign inRun, rfl⟩
  | comment data => exact ⟨false, _, Html.Lexer.reads_comment hsign inRun, rfl⟩
  | raw tag attrs body => exact hsign.elim

end Sign

end HtmlLayout
