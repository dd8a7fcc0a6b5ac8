import HtmlLayout.Proofs.Signs
import Mathlib.Data.List.Infix

/-!
# Telling signs apart

Where names are names of markup, where a comment does not hold its own end and raw text does not
hold the start of an end tag, a written sign can be told from the front of a text in one way only:
no sign is written as the start of another one. So the written text determines the signs.

Two facts about texts carry the proof. A stretch of characters of one class ends where the first
character outside of it stands, and a text that does not hold a pattern ends where the pattern first
occurs, provided that the pattern cannot overlap itself.
-/

namespace HtmlLayout

namespace Text

variable {α : Type}

/-- A stretch of one class ends where the first character outside of it stands. -/
theorem append_inj_of_class (inside : α → Prop) {first other rest others : List α}
    (hfirst : ∀ c ∈ first, inside c)
    (hother : ∀ c ∈ other, inside c) (hrest : ∀ c ∈ rest.head?, ¬inside c)
    (hothers : ∀ c ∈ others.head?, ¬inside c)
    (happ : first ++ rest = other ++ others) : first = other ∧ rest = others := by
  induction first generalizing other with
  | nil =>
      cases other with
      | nil => exact ⟨rfl, happ⟩
      | cons d more =>
          rw [List.nil_append] at happ
          exact absurd (hother d List.mem_cons_self) (hrest d (by simp [happ]))
  | cons c first ih =>
      obtain ⟨hc, hfirst⟩ := List.forall_mem_cons.mp hfirst
      cases other with
      | nil =>
          rw [List.nil_append] at happ
          exact absurd hc (hothers c (by simp [← happ]))
      | cons d more =>
          obtain ⟨-, hmore⟩ := List.forall_mem_cons.mp hother
          rw [List.cons_append, List.cons_append, List.cons.injEq] at happ
          obtain ⟨rfl, happ⟩ := happ
          obtain ⟨rfl, hrest⟩ := ih hfirst hmore happ
          exact ⟨rfl, hrest⟩

/-- A pattern that does not start again inside itself. -/
def Unbordered [DecidableEq α] (pattern : List α) : Prop :=
  ∀ shift ∈ List.range pattern.length, 0 < shift → ¬(pattern.drop shift).isPrefixOf pattern = true

instance [DecidableEq α] (pattern : List α) : Decidable (Unbordered pattern) :=
  inferInstanceAs (Decidable (∀ shift ∈ List.range pattern.length,
    0 < shift → ¬(pattern.drop shift).isPrefixOf pattern = true))

/-- A text without a pattern ends where the pattern first occurs. -/
theorem append_inj_of_pattern [DecidableEq α] {pattern : List α} (hpattern : Unbordered pattern)
    {first other rest others : List α} (hfirst : ¬pattern <:+: first) (hother : ¬pattern <:+: other)
    (happ : first ++ (pattern ++ rest) = other ++ (pattern ++ others)) :
    first = other ∧ rest = others := by
  -- By symmetry one of the two texts goes on beyond the other by `shift`, which would put the
  -- pattern into it.
  have hshift : ∀ {first shift rest others : List α}, ¬pattern <:+: first ++ shift →
      pattern ++ rest = shift ++ (pattern ++ others) → shift = [] := by
    intro first shift rest others hnot happ
    by_contra hne
    rcases Nat.lt_or_ge shift.length pattern.length with hlt | hge
    · refine hpattern shift.length (by simpa using hlt) (List.length_pos_iff.mpr hne) ?_
      have hdrop := congrArg (List.drop shift.length) happ
      rw [List.drop_append_of_le_length hlt.le, List.drop_left] at hdrop
      have hstart : pattern.drop shift.length <+: pattern ++ others := ⟨rest, hdrop⟩
      rw [List.isPrefixOf_iff_prefix]
      exact List.prefix_of_prefix_length_le hstart (List.prefix_append _ _) (by simp)
    · have hstart : pattern <+: shift :=
        List.prefix_of_prefix_length_le ⟨rest, happ⟩ (List.prefix_append _ _) hge
      exact hnot (hstart.isInfix.trans (List.suffix_append first shift).isInfix)
  rcases List.append_eq_append_iff.mp happ with ⟨shift, rfl, hrest⟩ | ⟨shift, rfl, hrest⟩
  · obtain rfl := hshift hother hrest
    simpa using hrest
  · obtain rfl := hshift hfirst hrest
    simpa using hrest.symm

end Text

/-! ### Names and attributes -/

namespace Tag

def isNameChar (c : Char) : Bool := Text.isLetter c || Text.isDigit c || c == '-'

/-- An ASCII letter and then ASCII letters, digits and dashes. -/
def isName (tag : String) : Bool :=
  match tag.toList with
  | [] => false
  | c :: rest => Text.isLetter c && rest.all isNameChar

theorem isNameChar_of_isName {tag : String} (hname : isName tag = true) :
    ∀ c ∈ tag.toList, isNameChar c = true := by
  unfold isName at hname
  split at hname
  · simp at hname
  · next first rest htag =>
      obtain ⟨hfirst, hrest⟩ := Bool.and_eq_true_iff.mp hname
      rw [htag]
      exact List.forall_mem_cons.mpr ⟨by simp [isNameChar, hfirst], List.all_eq_true.mp hrest⟩

end Tag

namespace Attribute

def outsideName : List Char := ['"', '=', '<', '>', '/', ':']

/-- A text that can be the name of an attribute. -/
def isName (name : String) : Bool :=
  name != "" && name.toList.all fun c => !Text.isSpace c && !outsideName.contains c

/-- An attribute whose key and qualifier, if it has one, are names. -/
def Legible (attr : Attribute) : Prop :=
  isName attr.key = true ∧ (attr.qualifier = "" ∨ isName attr.qualifier = true)

instance (attr : Attribute) : Decidable attr.Legible :=
  inferInstanceAs (Decidable (isName attr.key = true ∧
    (attr.qualifier = "" ∨ isName attr.qualifier = true)))

theorem ne_of_mem_name {name : String} (hname : isName name = true) {c : Char} (hc : c ∈ name.toList) :
    c ≠ '=' ∧ c ≠ ':' := by
  have hall := (Bool.and_eq_true_iff.mp hname).2
  have hin := List.all_eq_true.mp hall c hc
  constructor
  · rintro rfl
    simp [outsideName] at hin
  · rintro rfl
    simp [outsideName] at hin

theorem ne_equals_of_mem_name {attr : Attribute} (hattr : attr.Legible) :
    ∀ c ∈ attr.name.toList, c ≠ '=' := by
  intro c hc
  obtain ⟨hkey, hqualifier⟩ := hattr
  unfold name at hc
  split at hc
  · exact (ne_of_mem_name hkey hc).1
  · next hgiven =>
      have hqualifier := hqualifier.resolve_left (by simpa using hgiven)
      simp only [String.toList_append, List.mem_append] at hc
      rcases hc with (hc | hc) | hc
      · exact (ne_of_mem_name hqualifier hc).1
      · rw [show c = ':' by simpa using hc]
        decide
      · exact (ne_of_mem_name hkey hc).1

/-- The colon tells a qualifier from a key. -/
theorem eq_of_name_eq {attr other : Attribute} (hattr : attr.Legible) (hother : other.Legible)
    (hname : attr.name = other.name) : attr.key = other.key ∧ attr.qualifier = other.qualifier := by
  -- A key never holds the colon that a qualified name holds.
  have hcolon : ∀ {key start rest : String}, isName key = true → key ≠ start ++ ":" ++ rest := by
    intro key start rest hkey heq
    exact (ne_of_mem_name hkey (c := ':') (by simp [heq])).2 rfl
  obtain ⟨hkey, hqualifier⟩ := hattr
  obtain ⟨hotherKey, hotherQualifier⟩ := hother
  unfold name at hname
  split at hname <;> split at hname
  · next hnone hotherNone => exact ⟨hname, (eq_of_beq hnone).trans (eq_of_beq hotherNone).symm⟩
  · exact absurd hname (hcolon hkey)
  · exact absurd hname.symm (hcolon hotherKey)
  · next hgiven hotherGiven =>
      have hqualifier := hqualifier.resolve_left (by simpa using hgiven)
      have hotherQualifier := hotherQualifier.resolve_left (by simpa using hotherGiven)
      have hchars := congrArg String.toList hname
      simp only [String.toList_append, List.append_assoc] at hchars
      obtain ⟨hstart, hrest⟩ :=
          Text.append_inj_of_class (· ≠ ':') (fun c hc => (ne_of_mem_name hqualifier hc).2)
        (fun c hc => (ne_of_mem_name hotherQualifier hc).2) (by simp) (by simp) hchars
      exact ⟨String.toList_injective (by simpa using hrest), String.toList_injective hstart⟩

theorem toList_markup (attr : Attribute) :
    attr.markup.toList =
      ' ' :: (attr.name.toList ++
        '=' :: '"' :: (attr.value.toList.flatMap Text.escapeChar ++ ['"'])) := by
  simp [markup, Text.toList_escape]

theorem markup_append_inj {attr other : Attribute} (hattr : attr.Legible) (hother : other.Legible)
    {rest more : List Char}
    (happ : attr.markup.toList ++ rest = other.markup.toList ++ more) : attr = other ∧ rest = more := by
  have hquote : ∀ (value : String), ∀ c ∈ value.toList.flatMap Text.escapeChar, c ≠ '"' := by
    intro value c hc
    obtain ⟨d, -, hc⟩ := List.mem_flatMap.mp hc
    exact (Text.ne_special_of_mem_escapeChar hc).2.2
  simp only [toList_markup, List.cons_append, List.append_assoc, List.cons.injEq, true_and] at happ
  obtain ⟨hname, hvalue⟩ :=
      Text.append_inj_of_class (· ≠ '=') (ne_equals_of_mem_name hattr) (ne_equals_of_mem_name hother)
    (by simp) (by simp) happ
  simp only [List.cons.injEq, true_and] at hvalue
  obtain ⟨hvalue, hrest⟩ :=
      Text.append_inj_of_class (· ≠ '"') (hquote _) (hquote _) (by simp) (by simp) hvalue
  obtain ⟨hkey, hqualifier⟩ := eq_of_name_eq hattr hother (String.toList_injective hname)
  have hvalue := String.toList_injective (Text.flatMap_escapeChar_inj hvalue)
  cases attr
  cases other
  simp_all

theorem markups_append_inj {attrs others : List Attribute} (hattrs : ∀ attr ∈ attrs, attr.Legible)
    (hothers : ∀ attr ∈ others, attr.Legible) {rest more : List Char}
    (hrest : ∀ c ∈ rest.head?, c ≠ ' ') (hmore : ∀ c ∈ more.head?, c ≠ ' ')
    (happ : attrs.flatMap (fun attr => attr.markup.toList) ++ rest =
      others.flatMap (fun attr => attr.markup.toList) ++ more) :
    attrs = others ∧ rest = more := by
  induction attrs generalizing others with
  | nil =>
      cases others with
      | nil => exact ⟨rfl, happ⟩
      | cons other others =>
          simp only [List.flatMap_nil, List.nil_append, List.flatMap_cons, toList_markup,
              List.cons_append] at happ
          exact absurd rfl (hrest ' ' (by simp [happ]))
  | cons attr attrs ih =>
      obtain ⟨hattr, hattrs⟩ := List.forall_mem_cons.mp hattrs
      cases others with
      | nil =>
          simp only [List.flatMap_nil, List.nil_append, List.flatMap_cons, toList_markup,
              List.cons_append] at happ
          exact absurd rfl (hmore ' ' (by simp [← happ]))
      | cons other others =>
          obtain ⟨hother, hremaining⟩ := List.forall_mem_cons.mp hothers
          rw [List.flatMap_cons, List.flatMap_cons, List.append_assoc, List.append_assoc] at happ
          obtain ⟨rfl, htail⟩ := markup_append_inj hattr hother happ
          obtain ⟨rfl, hend⟩ := ih hattrs hremaining htail
          exact ⟨rfl, hend⟩

end Attribute

/-! ### Signs -/

namespace Node

theorem toList_startTag (tag : String) (attrs : List Attribute) :
    (startTag tag attrs).toList =
      '<' :: (tag.toList ++ attrs.flatMap fun attr => attr.markup.toList) := by
  simp [startTag, List.flatMap_map]

theorem startTag_append_inj {tag name : String} (htag : Tag.isName tag = true)
    (hname : Tag.isName name = true)
    {attrs others : List Attribute} (hattrs : ∀ attr ∈ attrs, attr.Legible)
    (hothers : ∀ attr ∈ others, attr.Legible)
    {rest more : List Char} (hrest : ∀ c ∈ rest.head?, c = '>' ∨ c = '/')
    (hmore : ∀ c ∈ more.head?, c = '>' ∨ c = '/')
    (happ : (startTag tag attrs).toList ++ rest = (startTag name others).toList ++ more) :
    tag = name ∧ attrs = others ∧ rest = more := by
  have hstop : ∀ (attrs : List Attribute) {rest : List Char},
      (∀ c ∈ rest.head?, c = '>' ∨ c = '/') →
      ∀ c ∈ (attrs.flatMap (fun attr => attr.markup.toList) ++ rest).head?,
        ¬Tag.isNameChar c = true := by
    intro attrs rest hrest c hc
    cases attrs with
    | nil => rcases hrest c hc with rfl | rfl <;> decide
    | cons attr attrs =>
        have hspace : c = ' ' := by simpa [Attribute.toList_markup, eq_comm] using hc
        rw [hspace]
        decide
  have hblank : ∀ {rest : List Char}, (∀ c ∈ rest.head?, c = '>' ∨ c = '/') →
      ∀ c ∈ rest.head?, c ≠ ' ' := by
    intro rest hrest c hc
    rcases hrest c hc with rfl | rfl <;> decide
  simp only [toList_startTag, List.cons_append, List.append_assoc, List.cons.injEq, true_and] at happ
  obtain ⟨htags, htail⟩ :=
      Text.append_inj_of_class (fun c => Tag.isNameChar c = true) (Tag.isNameChar_of_isName htag)
    (Tag.isNameChar_of_isName hname) (hstop attrs hrest) (hstop others hmore) happ
  obtain ⟨hattrsEq, hend⟩ :=
      Attribute.markups_append_inj hattrs hothers (hblank hrest) (hblank hmore) htail
  exact ⟨String.toList_injective htags, hattrsEq, hend⟩

theorem endTag_append_inj {tag name : String} (htag : Tag.isName tag = true)
    (hname : Tag.isName name = true)
    {rest more : List Char} (happ : (endTag tag).toList ++ rest = (endTag name).toList ++ more) :
    tag = name ∧ rest = more := by
  simp only [endTag, String.toList_append, List.append_assoc, List.append_cancel_left_eq] at happ
  obtain ⟨htags, hend⟩ :=
      Text.append_inj_of_class (fun c => Tag.isNameChar c = true) (Tag.isNameChar_of_isName htag)
    (Tag.isNameChar_of_isName hname) (by simp; decide) (by simp; decide) happ
  exact ⟨String.toList_injective htags, by simpa using hend⟩

end Node

namespace Sign

def commentEnd : List Char := ['-', '-', '>']

def endTagStart : List Char := ['<', '/']

/-- A sign that can be told apart from others in a text. -/
def Legible : Sign → Prop
  | char _ => True
  | opening tag attrs =>
      Tag.isName tag = true ∧ Tag.isRawText tag = false ∧ ∀ attr ∈ attrs, attr.Legible
  | empty tag attrs => Tag.isName tag = true ∧ ∀ attr ∈ attrs, attr.Legible
  | closing tag => Tag.isName tag = true
  | comment data => ¬commentEnd <:+: data.toList
  | raw tag attrs body =>
      Tag.isName tag = true ∧ Tag.isRawText tag = true ∧ (∀ attr ∈ attrs, attr.Legible) ∧
        ¬endTagStart <:+: body

/-- The kinds of signs that the first two characters tell apart. -/
inductive Front where
  | text
  | startTag
  | endTag
  | comment
  deriving DecidableEq

def frontOf : List Char → Front
  | '<' :: '/' :: _ => .endTag
  | '<' :: '!' :: _ => .comment
  | '<' :: _ => .startTag
  | _ => .text

def front : Sign → Front
  | char _ => .text
  | opening _ _ => .startTag
  | empty _ _ => .startTag
  | closing _ => .endTag
  | comment _ => .comment
  | raw _ _ _ => .startTag

theorem frontOf_startTag {tag : String} (htag : Tag.isName tag = true) (attrs : List Attribute)
    (rest : List Char) :
    frontOf ((Node.startTag tag attrs).toList ++ rest) = .startTag := by
  rw [Node.toList_startTag]
  unfold Tag.isName at htag
  split at htag
  · simp at htag
  · next c more hchars =>
      have hletter := (Bool.and_eq_true_iff.mp htag).1
      rw [hchars]
      simp only [List.cons_append]
      unfold frontOf
      split <;> simp_all [Text.isLetter]

theorem frontOf_spell_append {sign : Sign} (hsign : sign.Legible) (rest : List Char) :
    frontOf (sign.spell ++ rest) = sign.front := by
  cases sign with
  | char c =>
      cases hchars : Text.escapeChar c with
      | nil => exact absurd hchars (Text.escapeChar_ne_nil c)
      | cons d more =>
          have hne := (Text.ne_special_of_mem_escapeChar (c := c) (d := d) (by simp [hchars])).1
          simp [spell, hchars, front, frontOf, hne]
  | opening tag attrs => rw [spell, List.append_assoc, frontOf_startTag hsign.1, front]
  | empty tag attrs => rw [spell, List.append_assoc, frontOf_startTag hsign.1, front]
  | closing tag => simp [spell, Node.endTag, front, frontOf]
  | comment data => simp [spell, Node.commentMarkup, front, frontOf]
  | raw tag attrs body => rw [spell, List.append_assoc, frontOf_startTag hsign.1, front]

theorem startTag_eq_of_append {tag name : String} {attrs others : List Attribute}
    {tail ending rest more : List Char}
    (htag : Tag.isName tag = true) (hname : Tag.isName name = true)
    (hattrs : ∀ attr ∈ attrs, attr.Legible)
    (hothers : ∀ attr ∈ others, attr.Legible) {c d : Char} (hc : c = '>' ∨ c = '/')
    (hd : d = '>' ∨ d = '/') (happ : (Node.startTag tag attrs).toList ++ c :: tail ++ rest =
      (Node.startTag name others).toList ++ d :: ending ++ more) :
    tag = name ∧ attrs = others ∧ c = d ∧ tail ++ rest = ending ++ more := by
  rw [List.append_assoc, List.append_assoc] at happ
  obtain ⟨htags, hattrsEq, htail⟩ :=
      Node.startTag_append_inj htag hname hattrs hothers (by simpa using hc) (by simpa using hd) happ
  exact ⟨htags, hattrsEq, List.cons.inj htail⟩

/-- No sign is written as the start of another one. -/
theorem spell_append_inj {sign other : Sign} (hsign : sign.Legible) (hother : other.Legible)
    {rest more : List Char}
    (happ : sign.spell ++ rest = other.spell ++ more) : sign = other ∧ rest = more := by
  have hfront : sign.front = other.front := by
    rw [← frontOf_spell_append hsign rest, happ, frontOf_spell_append hother]
  cases sign with
  | char c =>
      cases other with
      | char d =>
          obtain ⟨rfl, hrest⟩ := Text.escapeChar_append_inj happ
          exact ⟨rfl, hrest⟩
      | _ => simp [front] at hfront
  | closing tag =>
      cases other with
      | closing name =>
          obtain ⟨rfl, hrest⟩ := Node.endTag_append_inj hsign hother happ
          exact ⟨rfl, hrest⟩
      | _ => simp [front] at hfront
  | comment data =>
      cases other with
      | comment text =>
          simp only [spell, Node.commentMarkup, String.toList_append, List.append_assoc,
              List.append_cancel_left_eq] at happ
          obtain ⟨hdata, hrest⟩ :=
              Text.append_inj_of_pattern (show Text.Unbordered commentEnd by decide) hsign hother happ
          exact ⟨congrArg comment (String.toList_injective hdata), hrest⟩
      | _ => simp [front] at hfront
  | opening tag attrs =>
      cases other with
      | opening name others =>
          obtain ⟨rfl, rfl, -, hrest⟩ :=
              startTag_eq_of_append hsign.1 hother.1 hsign.2.2 hother.2.2 (.inl rfl) (.inl rfl) happ
          exact ⟨rfl, hrest⟩
      | empty name others =>
          obtain ⟨-, -, hbracket, -⟩ :=
              startTag_eq_of_append hsign.1 hother.1 hsign.2.2 hother.2 (.inl rfl) (.inr rfl) happ
          exact absurd hbracket (by decide)
      | raw name others body =>
          obtain ⟨rfl, -⟩ :=
              startTag_eq_of_append hsign.1 hother.1 hsign.2.2 hother.2.2.1 (.inl rfl) (.inl rfl) happ
          exact absurd (hsign.2.1.symm.trans hother.2.1) Bool.false_ne_true
      | _ => simp [front] at hfront
  | empty tag attrs =>
      cases other with
      | opening name others =>
          obtain ⟨-, -, hbracket, -⟩ :=
              startTag_eq_of_append hsign.1 hother.1 hsign.2 hother.2.2 (.inr rfl) (.inl rfl) happ
          exact absurd hbracket (by decide)
      | empty name others =>
          obtain ⟨rfl, rfl, -, hrest⟩ :=
              startTag_eq_of_append hsign.1 hother.1 hsign.2 hother.2 (.inr rfl) (.inr rfl) happ
          exact ⟨rfl, by simpa using hrest⟩
      | raw name others body =>
          obtain ⟨-, -, hbracket, -⟩ :=
              startTag_eq_of_append hsign.1 hother.1 hsign.2 hother.2.2.1 (.inr rfl) (.inl rfl) happ
          exact absurd hbracket (by decide)
      | _ => simp [front] at hfront
  | raw tag attrs body =>
      cases other with
      | opening name others =>
          obtain ⟨rfl, -⟩ :=
              startTag_eq_of_append hsign.1 hother.1 hsign.2.2.1 hother.2.2 (.inl rfl) (.inl rfl) happ
          exact absurd (hother.2.1.symm.trans hsign.2.1) Bool.false_ne_true
      | empty name others =>
          obtain ⟨-, -, hbracket, -⟩ :=
              startTag_eq_of_append hsign.1 hother.1 hsign.2.2.1 hother.2 (.inl rfl) (.inr rfl) happ
          exact absurd hbracket (by decide)
      | raw name others text =>
          obtain ⟨rfl, rfl, -, hbody⟩ :=
            startTag_eq_of_append hsign.1 hother.1 hsign.2.2.1 hother.2.2.1 (.inl rfl) (.inl rfl) happ
          simp only [Node.endTag, String.toList_append, List.append_assoc] at hbody
          obtain ⟨rfl, hend⟩ :=
              Text.append_inj_of_pattern (show Text.Unbordered endTagStart by decide) hsign.2.2.2
            hother.2.2.2 hbody
          exact ⟨rfl, by simpa using hend⟩
      | _ => simp [front] at hfront

theorem spell_ne_nil (sign : Sign) : sign.spell ≠ [] := by
  cases sign with
  | char c => exact Text.escapeChar_ne_nil c
  | _ => simp [spell, Node.endTag, Node.commentMarkup]

/-- A written text determines its signs. -/
theorem spellAll_inj {signs others : List Sign} (hsigns : ∀ sign ∈ signs, sign.Legible)
    (hothers : ∀ sign ∈ others, sign.Legible) (happ : spellAll signs = spellAll others) :
    signs = others := by
  induction signs generalizing others with
  | nil =>
      cases others with
      | nil => rfl
      | cons other others => simp [spell_ne_nil] at happ
  | cons sign signs ih =>
      obtain ⟨hsign, hsigns⟩ := List.forall_mem_cons.mp hsigns
      cases others with
      | nil => simp [spell_ne_nil] at happ
      | cons other others =>
          obtain ⟨hother, hremaining⟩ := List.forall_mem_cons.mp hothers
          obtain ⟨rfl, hrest⟩ := spell_append_inj hsign hother happ
          rw [ih hsigns hremaining hrest]

end Sign

end HtmlLayout
