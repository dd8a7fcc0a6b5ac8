import HtmlLayout.Text.Blank
import HtmlLayout.Text.Escape
import Mathlib.Data.List.Basic

/-!
# Escaping character by character

The escape is defined by replacements of the whole text, one after the other. It does the same as
writing every character on its own: the ampersands that the later replacements put in are never
looked at again. What one character is written as can be told from the front of a text, so the
written text determines the text.
-/

namespace HtmlLayout.Text

/-- What one character is written as. -/
def escapeChar (c : Char) : List Char :=
  if c = '&' then ['&', 'a', 'm', 'p', ';']
  else if c = '<' then ['&', 'l', 't', ';']
  else if c = '>' then ['&', 'g', 't', ';']
  else if c = '"' then ['&', 'q', 'u', 'o', 't', ';']
  else [c]

/-- To replace a pattern of one character is to replace each character on its own. -/
theorem replaceFrom_singleton (c : Char) (replacement text : List Char) :
    replaceFrom [c] replacement 0 text = text.flatMap fun d => if d = c then replacement else [d] := by
  induction text with
  | nil => rfl
  | cons d rest ih =>
      by_cases hd : d = c
      · simp [replaceFrom, hd, ih]
      · simp [replaceFrom, hd, Ne.symm hd, ih]

theorem escapeChars_eq_flatMap (text : List Char) : escapeChars text = text.flatMap escapeChar := by
  have hamp : replaceAll "&" "&amp;" text =
      text.flatMap fun d => if d = '&' then ['&', 'a', 'm', 'p', ';'] else [d] :=
    replaceFrom_singleton '&' _ text
  have hlt := replaceFrom_singleton '<' ['&', 'l', 't', ';']
  have hgt := replaceFrom_singleton '>' ['&', 'g', 't', ';']
  have hquot := replaceFrom_singleton '"' ['&', 'q', 'u', 'o', 't', ';']
  change replaceFrom ['"'] ['&', 'q', 'u', 'o', 't', ';'] 0 (replaceFrom ['>'] ['&', 'g', 't', ';'] 0
    (replaceFrom ['<'] ['&', 'l', 't', ';'] 0 (replaceAll "&" "&amp;" text))) = _
  rw [hamp, hlt, hgt, hquot, List.flatMap_assoc, List.flatMap_assoc, List.flatMap_assoc]
  congr 1
  funext c
  unfold escapeChar
  split
  · rfl
  · split
    · next hc => subst hc; rfl
    · split
      · next hc => subst hc; rfl
      · simp_all

theorem escapeChar_ne_nil (c : Char) : escapeChar c ≠ [] := by
  unfold escapeChar
  repeat' split
  all_goals simp

/-- A written text can be taken apart at its front in one way only. -/
theorem escapeChar_append_inj {c d : Char} {rest others : List Char}
    (happ : escapeChar c ++ rest = escapeChar d ++ others) : c = d ∧ rest = others := by
  unfold escapeChar at happ
  repeat' split at happ
  all_goals
    simp only [List.cons_append, List.nil_append, List.cons.injEq] at happ
    grind

theorem flatMap_escapeChar_inj {text other : List Char}
    (happ : text.flatMap escapeChar = other.flatMap escapeChar) :
    text = other := by
  induction text generalizing other with
  | nil =>
      cases other with
      | nil => rfl
      | cons d others => simp [escapeChar_ne_nil] at happ
  | cons c rest ih =>
      cases other with
      | nil => simp [escapeChar_ne_nil] at happ
      | cons d others =>
          obtain ⟨rfl, hrest⟩ := escapeChar_append_inj (by simpa using happ)
          rw [ih hrest]

theorem toList_escape (text : String) : (escape text).toList = text.toList.flatMap escapeChar := by
  rw [escape, String.toList_ofList, escapeChars_eq_flatMap]

theorem ne_special_of_mem_escapeChar {c d : Char} (hmem : d ∈ escapeChar c) :
    d ≠ '<' ∧ d ≠ '>' ∧ d ≠ '"' := by
  unfold escapeChar at hmem
  repeat' split at hmem
  all_goals grind

theorem escapeChar_of_isSpace {c : Char} (hspace : isSpace c = true) : escapeChar c = [c] := by
  have hne : ∀ d : Char, isSpace d = false → c ≠ d := by
    intro d hd hcd
    rw [hcd, hd] at hspace
    exact Bool.false_ne_true hspace
  simp [escapeChar, hne '&' rfl, hne '<' rfl, hne '>' rfl, hne '"' rfl]

end HtmlLayout.Text
