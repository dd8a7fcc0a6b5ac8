import HtmlLayout.Proofs.Escape

/-!
# The escape undone

The escape is undone the way it is done, by replacements of the whole text: each reference becomes
its character again, and the reference of the ampersand goes last. Until then an ampersand in the
text is the start of a reference, so a replacement that comes to an ampersand has a whole reference
before it, which is the one it looks for or is passed over as it is. Had the ampersand come back
earlier, it could start a reference together with the text after it.

A text on its way back is one in which some characters stand for themselves again and all others are
still escaped. One replacement brings back one character more, and that is all the main result needs.
-/

namespace HtmlLayout.Text

/-! ### What a replacement does at its front -/

/-- The rest of an occurrence is passed over. -/
theorem replaceFrom_length_append (pattern replacement passed rest : List Char) :
    replaceFrom pattern replacement passed.length (passed ++ rest) =
      replaceFrom pattern replacement 0 rest := by
  induction passed with
  | nil => rfl
  | cons c passed ih => rw [List.length_cons, List.cons_append, replaceFrom, ih]

/-- An occurrence is replaced as a whole. -/
theorem replaceFrom_pattern_append {pattern : List Char} (hpattern : pattern ≠ [])
    (replacement rest : List Char) :
    replaceFrom pattern replacement 0 (pattern ++ rest) =
      replacement ++ replaceFrom pattern replacement 0 rest := by
  obtain ⟨first, others, rfl⟩ := List.exists_cons_of_ne_nil hpattern
  have hstarts : (first :: others).isPrefixOf (first :: (others ++ rest)) = true :=
    List.isPrefixOf_iff_prefix.mpr (List.prefix_append (first :: others) rest)
  rw [List.cons_append, replaceFrom, if_pos hstarts]
  exact congrArg (replacement ++ ·) (replaceFrom_length_append (first :: others) replacement others rest)

section Passing

variable {first : Char} {others replacement word rest : List Char}

/-- Text in which no occurrence can start stays. -/
theorem replaceFrom_append_of_not_mem (hword : first ∉ word) :
    replaceFrom (first :: others) replacement 0 (word ++ rest) =
      word ++ replaceFrom (first :: others) replacement 0 rest := by
  induction word with
  | nil => rfl
  | cons c word ih =>
      rw [List.mem_cons, not_or] at hword
      have hstarts : ¬(first :: others).isPrefixOf (c :: (word ++ rest)) = true := by
        rw [List.isPrefixOf_iff_prefix, List.cons_prefix_cons]
        exact fun hprefix => hword.1 hprefix.1
      rw [List.cons_append, replaceFrom, if_neg hstarts, ih hword.2, List.cons_append]

/-- A word in which an occurrence could start in first place only stays if none starts there. -/
theorem replaceFrom_append_of_not_isPrefix (hstart : ¬first :: others <+: word ++ rest)
    (htail : first ∉ word.tail) :
    replaceFrom (first :: others) replacement 0 (word ++ rest) =
      word ++ replaceFrom (first :: others) replacement 0 rest := by
  cases word with
  | nil => rfl
  | cons c word =>
      rw [← List.isPrefixOf_iff_prefix, List.cons_append] at hstart
      rw [List.tail_cons] at htail
      rw [List.cons_append, replaceFrom, if_neg hstart, replaceFrom_append_of_not_mem htail,
        List.cons_append]

end Passing

/-! ### One character back -/

/-- The characters that are escaped. -/
def specials : List Char := ['&', '<', '>', '"']

theorem escapeChar_of_not_mem_specials {c : Char} (hc : c ∉ specials) : escapeChar c = [c] := by
  simp only [specials, List.mem_cons, List.not_mem_nil, or_false, not_or] at hc
  obtain ⟨hamp, hless, hgreater, hquote⟩ := hc
  rw [escapeChar, if_neg hamp, if_neg hless, if_neg hgreater, if_neg hquote]

theorem exists_escapeChar_eq_cons {c : Char} (hc : c ∈ specials) :
    ∃ name, escapeChar c = '&' :: name := by
  simp only [specials, List.mem_cons, List.not_mem_nil, or_false] at hc
  obtain rfl | rfl | rfl | rfl := hc <;> exact ⟨_, rfl⟩

/-- An ampersand is nowhere in what a character is written as but at its start. -/
theorem ampersand_not_mem_tail_escapeChar (c : Char) : '&' ∉ (escapeChar c).tail := by
  by_cases hc : c ∈ specials
  · simp only [specials, List.mem_cons, List.not_mem_nil, or_false] at hc
    obtain rfl | rfl | rfl | rfl := hc <;> decide
  · rw [escapeChar_of_not_mem_specials hc]
    exact List.not_mem_nil

/-- What a character is written as in a text on its way back: those that are back stand for
themselves. -/
def partlyEscaped (back : List Char) (c : Char) : List Char :=
  if c ∈ back then [c] else escapeChar c

theorem ampersand_not_mem_tail_partlyEscaped (back : List Char) (c : Char) :
    '&' ∉ (partlyEscaped back c).tail := by
  unfold partlyEscaped
  split
  · exact List.not_mem_nil
  · exact ampersand_not_mem_tail_escapeChar c

/-- While the ampersand is not back, a reference stands only where its character was. -/
theorem eq_of_escapeChar_isPrefix {special c : Char} {back rest : List Char}
    (hspecial : special ∈ specials) (hamp : '&' ∉ back)
    (hstart : escapeChar special <+: partlyEscaped back c ++ rest) : c = special := by
  unfold partlyEscaped at hstart
  split at hstart
  · next hback =>
      obtain ⟨name, hname⟩ := exists_escapeChar_eq_cons hspecial
      rw [hname, List.singleton_append, List.cons_prefix_cons] at hstart
      exact absurd (hstart.1 ▸ hback) hamp
  · obtain ⟨more, hmore⟩ := hstart
    exact (escapeChar_append_inj hmore).1.symm

/-- The replacement of one reference brings back its character and leaves all others as they are. -/
theorem replaceFrom_escapeChar (special : Char) (back : List Char) (hspecial : special ∈ specials)
    (hback : special ∉ back) (hamp : '&' ∉ back) (text : List Char) :
    replaceFrom (escapeChar special) [special] 0 (text.flatMap (partlyEscaped back)) =
      text.flatMap (partlyEscaped (special :: back)) := by
  induction text with
  | nil => rfl
  | cons c rest ih =>
      rw [List.flatMap_cons, List.flatMap_cons, ← ih]
      by_cases hc : c = special
      · subst hc
        have hescaped : partlyEscaped back c = escapeChar c := if_neg hback
        have hplain : partlyEscaped (c :: back) c = [c] := if_pos List.mem_cons_self
        rw [hescaped, hplain]
        exact replaceFrom_pattern_append (escapeChar_ne_nil c) [c] _
      · have hsame : partlyEscaped (special :: back) c = partlyEscaped back c := by
          simp [partlyEscaped, hc]
        have hstart : ¬escapeChar special <+:
            partlyEscaped back c ++ rest.flatMap (partlyEscaped back) :=
          fun hprefix => hc (eq_of_escapeChar_isPrefix hspecial hamp hprefix)
        obtain ⟨name, hname⟩ := exists_escapeChar_eq_cons hspecial
        rw [hname] at hstart ⊢
        rw [hsame]
        exact replaceFrom_append_of_not_isPrefix hstart (ampersand_not_mem_tail_partlyEscaped back c)

/-! ### All characters back -/

/-- The characters of a text with its four references read as the characters they stand for. -/
def unescapeChars (text : List Char) : List Char :=
  replaceAll "&amp;" "&" (replaceAll "&quot;" "\"" (replaceAll "&gt;" ">" (replaceAll "&lt;" "<" text)))

/-- A text as it was before it was escaped. -/
def unescape (text : String) : String :=
  String.ofList (unescapeChars text.toList)

theorem partlyEscaped_nil : partlyEscaped [] = escapeChar := by
  funext c
  exact if_neg List.not_mem_nil

/-- With the four special characters back, every character stands for itself. -/
theorem partlyEscaped_of_specials_subset {back : List Char} (hback : specials ⊆ back) (c : Char) :
    partlyEscaped back c = [c] := by
  unfold partlyEscaped
  split
  · rfl
  · next hc => exact escapeChar_of_not_mem_specials fun hspecial => hc (hback hspecial)

theorem unescapeChars_flatMap_escapeChar (text : List Char) :
    unescapeChars (text.flatMap escapeChar) = text := by
  have hless : replaceAll "&lt;" "<" (text.flatMap escapeChar) =
      text.flatMap (partlyEscaped ['<']) := by
    rw [← partlyEscaped_nil]
    exact replaceFrom_escapeChar '<' [] (by decide) (by decide) (by decide) text
  have hgreater : replaceAll "&gt;" ">" (text.flatMap (partlyEscaped ['<'])) =
      text.flatMap (partlyEscaped ['>', '<']) :=
    replaceFrom_escapeChar '>' ['<'] (by decide) (by decide) (by decide) text
  have hquote : replaceAll "&quot;" "\"" (text.flatMap (partlyEscaped ['>', '<'])) =
      text.flatMap (partlyEscaped ['"', '>', '<']) :=
    replaceFrom_escapeChar '"' ['>', '<'] (by decide) (by decide) (by decide) text
  have hamp : replaceAll "&amp;" "&" (text.flatMap (partlyEscaped ['"', '>', '<'])) =
      text.flatMap (partlyEscaped ['&', '"', '>', '<']) :=
    replaceFrom_escapeChar '&' ['"', '>', '<'] (by decide) (by decide) (by decide) text
  rw [unescapeChars, hless, hgreater, hquote, hamp,
    funext (partlyEscaped_of_specials_subset (by decide)), List.flatMap_singleton']

/-- The four replacements of the escape do what one pass over the text does that writes each
character on its own, and the four replacements of the references give the text back. -/
theorem escape_is_one_pass_and_undone (text : String) :
    escape text = String.ofList (text.toList.flatMap escapeChar) ∧ unescape (escape text) = text := by
  constructor
  · rw [escape, escapeChars_eq_flatMap]
  · rw [unescape, toList_escape, unescapeChars_flatMap_escapeChar, String.ofList_toList]

/-- The ampersand must not come back before the others: an escaped `&lt;` would be read twice. -/
example : replaceAll "&lt;" "<" (replaceAll "&amp;" "&" (escapeChars "&lt;".toList)) = ['<'] := by
  decide

end HtmlLayout.Text
