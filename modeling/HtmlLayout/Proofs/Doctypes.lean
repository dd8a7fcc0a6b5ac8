import HtmlLayout.Proofs.Outline
import HtmlLayout.Proofs.Spelling

/-!
# Document types are written without ambiguity

A document type is written with one, two or no identifiers, and each identifier is quoted in its own
way. All of it can be read off the text again. The name ends at the first space, the word after it
tells a public identifier from a system identifier, and an identifier ends where its quote comes
again: the quote is chosen so that the identifier does not hold it, unless it holds both kinds.
-/

namespace HtmlLayout

namespace Doctype

/-- An identifier that does not hold both kinds of quotes. -/
def isQuotable (identifier : Option String) : Bool :=
  identifier.all fun text => !(text.toList.contains '"' && text.toList.contains '\'')

/-- A declaration with a space nowhere in its name and both kinds of quotes in none of its
identifiers. -/
structure Legible (declaration : Doctype) : Prop where
  name : ' ' ∉ declaration.name.toList
  publicId : isQuotable declaration.publicId = true
  systemId : isQuotable declaration.systemId = true

/-- A declaration in which an empty identifier is a missing one. -/
def settled (declaration : Doctype) : Doctype :=
  { declaration with
    publicId := given? declaration.publicId
    systemId := given? declaration.systemId }

/-! ### Identifiers -/

/-- The quote that an identifier is put between. -/
def quote (identifier : String) : Char :=
  if identifier.toList.contains '"' then '\'' else '"'

theorem toList_quoted (identifier : String) :
    (quoted identifier).toList =
      quote identifier :: (identifier.toList ++ [quote identifier]) := by
  unfold quoted quote
  split <;> simp

theorem isQuotable_given? {identifier : Option String} (hidentifier : isQuotable identifier = true) :
    isQuotable (given? identifier) = true := by
  unfold given?
  cases identifier with
  | none => rfl
  | some text =>
      rw [Option.filter_some]
      split
      · exact hidentifier
      · rfl

theorem quote_not_mem {identifier : String} (hidentifier : isQuotable (some identifier) = true) :
    quote identifier ∉ identifier.toList := by
  unfold quote
  by_cases hdouble : '"' ∈ identifier.toList
  · have hsingle : '\'' ∉ identifier.toList := by simpa [isQuotable, hdouble] using hidentifier
    simpa [hdouble] using hsingle
  · simp [hdouble]

/-- An identifier ends where its quote comes again. -/
theorem quoted_append_inj {identifier other : String}
    (hidentifier : isQuotable (some identifier) = true) (hother : isQuotable (some other) = true)
    {rest more : List Char}
    (happ : (quoted identifier).toList ++ rest = (quoted other).toList ++ more) :
    identifier = other ∧ rest = more := by
  have hinside : ∀ {text : String}, isQuotable (some text) = true →
      ∀ c ∈ text.toList, c ≠ quote text := by
    intro text htext c hc hquote
    rw [hquote] at hc
    exact quote_not_mem htext hc
  simp only [toList_quoted, List.cons_append, List.append_assoc, List.nil_append,
    List.cons.injEq] at happ
  obtain ⟨hquote, happ⟩ := happ
  have hotherInside := hinside hother
  rw [← hquote] at happ hotherInside
  obtain ⟨hsame, hrest⟩ := Text.append_inj_of_class (· ≠ quote identifier) (hinside hidentifier)
    hotherInside (by simp) (by simp) happ
  exact ⟨String.toList_injective hsame, (List.cons.inj hrest).2⟩

/-- What follows the name is empty or starts with a space. -/
theorem head_identifiers (declaration : Doctype) :
    ∀ c ∈ declaration.identifiers.toList.head?, c = ' ' := by
  unfold identifiers
  split <;> simp

/-- What follows the name tells the identifiers that are there. -/
theorem identifiers_inj {declaration other : Doctype} (hdeclaration : declaration.Legible)
    (hother : other.Legible) (hsame : declaration.identifiers = other.identifiers) :
    given? declaration.publicId = given? other.publicId ∧
      given? declaration.systemId = given? other.systemId := by
  have hpublic := isQuotable_given? hdeclaration.publicId
  have hsystem := isQuotable_given? hdeclaration.systemId
  have hotherPublic := isQuotable_given? hother.publicId
  have hotherSystem := isQuotable_given? hother.systemId
  have happ := congrArg String.toList hsame
  simp only [identifiers] at happ
  generalize given? declaration.publicId = publicId at *
  generalize given? declaration.systemId = systemId at *
  generalize given? other.publicId = otherPublic at *
  generalize given? other.systemId = otherSystem at *
  -- The first letter tells which of the two words is there, if any, and then the identifiers that
  -- stand in the same places are compared one by one.
  rcases publicId with _ | publicId <;> rcases systemId with _ | systemId <;>
    rcases otherPublic with _ | otherPublic <;> rcases otherSystem with _ | otherSystem <;>
    simp only [String.toList_append, String.reduceToList, String.toList_empty, List.cons_append,
      List.nil_append, List.append_assoc, List.cons.injEq, List.nil_eq, Char.reduceEq, reduceCtorEq,
      true_and, false_and, and_false] at happ
  · exact ⟨rfl, rfl⟩
  · obtain ⟨rfl, -⟩ := quoted_append_inj hsystem hotherSystem (congrArg (· ++ []) happ)
    exact ⟨rfl, rfl⟩
  · obtain ⟨rfl, -⟩ := quoted_append_inj hpublic hotherPublic (congrArg (· ++ []) happ)
    exact ⟨rfl, rfl⟩
  · rw [← List.append_nil (quoted publicId).toList] at happ
    cases (quoted_append_inj hpublic hotherPublic happ).2
  · rw [← List.append_nil (quoted otherPublic).toList] at happ
    cases (quoted_append_inj hpublic hotherPublic happ).2
  · obtain ⟨rfl, hrest⟩ := quoted_append_inj hpublic hotherPublic happ
    have hrest := congrArg (· ++ []) (List.cons.inj hrest).2
    obtain ⟨rfl, -⟩ := quoted_append_inj hsystem hotherSystem hrest
    exact ⟨rfl, rfl⟩

/-! ### Declarations -/

/-- The name ends at the first space, or at the bracket if there is none. -/
theorem settled_eq_of_markup_eq {declaration other : Doctype} (hdeclaration : declaration.Legible)
    (hother : other.Legible) (hsame : declaration.markup = other.markup) :
    declaration.settled = other.settled := by
  have hinside : ∀ {given : Doctype}, given.Legible → ∀ c ∈ given.name.toList, c ≠ ' ' := by
    intro given hgiven c hc hspace
    exact hgiven.name (hspace ▸ hc)
  have happ : declaration.name.toList ++ declaration.identifiers.toList =
      other.name.toList ++ other.identifiers.toList := by
    have hchars := congrArg String.toList hsame
    simpa [markup, ← List.append_assoc] using hchars
  obtain ⟨hname, hidentifiers⟩ := Text.append_inj_of_class (· ≠ ' ') (hinside hdeclaration)
    (hinside hother) (fun c hc => not_not.mpr (head_identifiers declaration c hc))
    (fun c hc => not_not.mpr (head_identifiers other c hc)) happ
  obtain ⟨hpublic, hsystem⟩ :=
    identifiers_inj hdeclaration hother (String.toList_injective hidentifiers)
  simp [settled, String.toList_injective hname, hpublic, hsystem]

theorem markup_settled (declaration : Doctype) :
    declaration.settled.markup = declaration.markup := by
  have hgiven : ∀ identifier : Option String, given? (given? identifier) = given? identifier := by
    intro identifier
    simp [given?]
  simp [markup, identifiers, settled, hgiven]

end Doctype

theorem Node.toText_doctype (declaration : Doctype) (calls : Nat) (style : Style) :
    (doctype declaration).toText calls style = (.ok declaration.markup, #[]) := by
  rw [Node.toText_eq_outline style (Nat.zero_le _)]
  rfl

/-- Two declarations are written as the same text exactly when they have the same name, the same
public identifier and the same system identifier, an empty identifier being a missing one. -/
theorem Doctype.toText_eq_iff_settled_eq {declaration other : Doctype}
    (hdeclaration : declaration.Legible) (hother : other.Legible) (calls : Nat)
    (style otherStyle : Style) :
    ((Node.doctype declaration).toText calls style).1 =
        ((Node.doctype other).toText calls otherStyle).1 ↔
      declaration.settled = other.settled := by
  rw [Node.toText_doctype, Node.toText_doctype]
  constructor
  · intro hsame
    exact settled_eq_of_markup_eq hdeclaration hother (Except.ok.inj hsame)
  · intro hsame
    rw [← markup_settled declaration, ← markup_settled other, hsame]

/-- A public identifier that spells out where another one ends and a system identifier starts. -/
theorem Doctype.toText_eq_iff_settled_eq_lookalike :
    let declaration : Doctype :=
      { name := "html", publicId := some "x\" \"y", systemId := some "" }
    let other : Doctype := { name := "html", publicId := some "x", systemId := some "y" }
    declaration.Legible ∧ other.Legible ∧
      ((Node.doctype declaration).toText defaultCalls {}).1 ≠
        ((Node.doctype other).toText defaultCalls {}).1 := by
  intro declaration other
  have hdeclaration : declaration.Legible := ⟨by decide, by decide, by decide⟩
  have hother : other.Legible := ⟨by decide, by decide, by decide⟩
  refine ⟨hdeclaration, hother, fun hsame => ?_⟩
  have hsettled :=
    (Doctype.toText_eq_iff_settled_eq hdeclaration hother defaultCalls {} {}).1 hsame
  exact absurd hsettled (by decide)

end HtmlLayout
