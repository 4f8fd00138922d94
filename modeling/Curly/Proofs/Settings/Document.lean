import Curly.Settings

/-!
# Readers of documents

What is relied on of a reader of settings (`Settings.ReadsDocuments`): two rules of the language
that documents are written in. Blank lines and comments say nothing, and a document that says
nothing leaves the settings as they are without it. What begins with a bare key goes on, after the
key, with a dot or an equals sign. Of all other documents nothing is said.
-/

namespace Curly

namespace Document

/-- A blank within a line. -/
def isSpace (c : Char) : Bool := c == ' ' || c == '\t'

/-- A character of a key that is not quoted. -/
def isKeyChar (c : Char) : Bool := c.isAlphanum || c == '_' || c == '-'

/-- A text from where it first says something: behind the blanks, the line ends and the comments
at its start. `inComment` tells whether it starts inside a comment. -/
def opening (inComment : Bool) : List Char → List Char
  | [] => []
  | c :: cs =>
    if inComment then opening (c != '\n') cs
    else if isSpace c || c == '\n' || c == '\r' then opening false cs
    else if c == '#' then opening true cs
    else c :: cs

variable {inComment : Bool} {c : Char} {cs body : List Char}

@[simp] theorem opening_nil : opening inComment [] = [] := by cases inComment <;> rfl

theorem opening_blank (h : isSpace c || c == '\n' || c == '\r') :
    opening false (c :: cs) = opening false cs := by
  rw [opening, if_neg Bool.false_ne_true, if_pos h]

theorem opening_hash : opening false ('#' :: cs) = opening true cs := rfl

theorem opening_lineFeed : opening inComment ('\n' :: cs) = opening false cs := by
  cases inComment <;> rfl

/-- A comment goes on to the end of its line. -/
theorem opening_comment (h : '\n' ∉ body) : opening true (body ++ cs) = opening true cs := by
  induction body with
  | nil => rfl
  | cons c body ih =>
    obtain ⟨hc, hbody⟩ := List.ne_and_not_mem_of_not_mem_cons h
    have hgoes : (c != '\n') = true := bne_iff_ne.2 (Ne.symm hc)
    rw [List.cons_append, opening, if_pos rfl, hgoes, ih hbody]

/-- Blanks at the start say nothing. -/
theorem opening_dropWhile (cs : List Char) :
    opening false (cs.dropWhile isSpace) = opening false cs := by
  induction cs with
  | nil => rfl
  | cons c cs ih =>
    by_cases hc : isSpace c = true
    · rw [List.dropWhile_cons_of_pos hc, opening_blank (by simp [hc]), ih]
    · rw [List.dropWhile_cons_of_neg hc]

/-- Any other character is what the text says first. -/
theorem opening_cons (hspace : isSpace c = false) (h : ¬ (c = '#' ∨ c = '\n' ∨ c = '\r')) :
    opening false (c :: cs) = c :: cs := by
  rw [not_or, not_or] at h
  have hblank : (isSpace c || c == '\n' || c == '\r') = false := by
    rw [Bool.or_eq_false_iff, Bool.or_eq_false_iff, beq_eq_false_iff_ne, beq_eq_false_iff_ne]
    exact ⟨⟨hspace, h.2.1⟩, h.2.2⟩
  rw [opening, if_neg Bool.false_ne_true, hblank, beq_eq_false_iff_ne.2 h.1]
  rfl

theorem opening_of_isKeyChar (h : isKeyChar c) : opening false (c :: cs) = c :: cs := by
  have hother : ∀ e, isKeyChar e = false → c ≠ e := by
    rintro e he rfl
    rw [h] at he
    cases he
  refine opening_cons ?_ ?_
  · simp [isSpace, hother ' ' (by decide), hother '\t' (by decide)]
  · simp [hother '#' (by decide), hother '\n' (by decide), hother '\r' (by decide)]

end Document

open Document in
/-- What is relied on of a reader of settings. -/
structure Settings.ReadsDocuments (read : String → Option Settings) : Prop where
  /-- A document that says nothing leaves all settings at their standard values. -/
  silent : ∀ {text s}, read text = some s → opening false text.toList = [] → s = .standard
  /-- A bare key at the start of a document has a dot or an equals sign after it. -/
  keyed : ∀ {text s word rest}, read text = some s → opening false text.toList = word ++ rest →
    word ≠ [] → (∀ c ∈ word, isKeyChar c) → (∀ c ∈ rest.head?, isKeyChar c = false) →
    ∃ c ∈ (rest.dropWhile isSpace).head?, c = '.' ∨ c = '='

/-- Settings that are taken from a text are those that it is read as. -/
theorem Settings.exists_of_parseWith {read : String → Option Settings} {text : String}
    {s : Settings} (h : parseWith read text = .ok s) :
    ∃ given, read text = some given ∧ given.checked = .ok s := by
  rw [parseWith] at h
  cases hgiven : read text with
  | none =>
    rw [hgiven] at h
    cases h
  | some given =>
    rw [hgiven] at h
    exact ⟨given, rfl, h⟩

end Curly
