import Curly.Proofs.Settings.Document
import Curly.Proofs.Token.Next
import Curly.Service.Settings

/-!
# Settings in documents

The reader of settings goes by the rules for documents (`Settings.readsDocuments`): line by line it
passes over what says nothing (`Toml.allLines_opening`), and a line that begins with a bare key is
refused unless a dot or an equals sign comes next (`Toml.allLines_word`).
-/

namespace Curly

open Document (opening)

namespace Toml

variable {d : Draft} {entries : Entries} {n : Nat} {cs word rest : List Char} {c : Char}

/-! ## Silent lines -/

theorem skipSpace_cons (hc : isSpace c = false) : skipSpace (c :: cs) = c :: cs :=
  List.dropWhile_cons_of_neg (by rw [hc]; exact Bool.false_ne_true)

theorem opening_skipSpace (cs : List Char) : opening false (skipSpace cs) = opening false cs :=
  Document.opening_dropWhile cs

/-- What may stand in a comment does not end it. -/
theorem opening_dropWhile_isPlain (cs : List Char) :
    opening true (cs.dropWhile isPlain) = opening true cs := by
  induction cs with
  | nil => rfl
  | cons c cs ih =>
    cases hc : isPlain c with
    | true =>
      have hne : c ≠ '\n' := by
        rintro rfl
        cases hc
      rw [List.dropWhile_cons_of_pos hc, ih, ← List.singleton_append,
        Document.opening_comment (by simpa using hne.symm)]
    | false => rw [List.dropWhile_cons_of_neg (by rw [hc]; exact Bool.false_ne_true)]

theorem opening_of_lineEnd? {inComment : Bool} (h : lineEnd? cs = some rest) :
    opening inComment cs = opening false rest := by
  unfold lineEnd? at h
  split at h
  · obtain rfl := Option.some.inj h
    exact Document.opening_lineFeed
  · obtain rfl := Option.some.inj h
    cases inComment <;> rfl
  · cases h

/-- The end of a line is passed over, with a comment before it. -/
theorem opening_of_endLine? (hc : c = '#' ∨ c = '\n' ∨ c = '\r')
    (h : endLine? (c :: cs) = some rest) : opening false (c :: cs) = opening false rest := by
  have hspace : isSpace c = false := by rcases hc with rfl | rfl | rfl <;> decide
  rw [endLine?, skipSpace_cons hspace] at h
  rcases hc with rfl | hc
  · rw [Document.opening_hash, ← opening_dropWhile_isPlain]
    rw [skipComment] at h
    split at h
    · next hnil =>
      obtain rfl := Option.some.inj h
      rw [hnil, Document.opening_nil, Document.opening_nil]
    · exact opening_of_lineEnd? h
  · have hcomment : skipComment (c :: cs) = c :: cs := by rcases hc with rfl | rfl <;> rfl
    rw [hcomment] at h
    exact opening_of_lineEnd? h

/-- **Reading starts with what a document says first**, and with nothing else if it says nothing. -/
theorem allLines_opening (h : allLines n d cs = some entries) :
    (opening false cs = [] ∧ d.close = some entries) ∨
      ∃ n', allLines n' d (opening false cs) = some entries := by
  induction n generalizing cs with
  | zero => cases h
  | succ n ih =>
    have hskip := h
    rw [allLines] at h
    rw [← opening_skipSpace]
    split at h
    · next hnil =>
      rw [hnil]
      exact .inl ⟨rfl, h⟩
    · next c cs' hcons =>
      rw [hcons]
      by_cases hc : c = '#' ∨ c = '\n' ∨ c = '\r'
      · rw [if_pos hc] at h
        obtain ⟨later, hend, hlater⟩ := Option.bind_eq_some_iff.1 h
        rw [opening_of_endLine? hc hend]
        exact ih hlater
      · right
        have hspace : isSpace c = false := by
          have hhead := List.head?_dropWhile_not isSpace cs
          have hdrop : cs.dropWhile isSpace = c :: cs' := hcons
          rw [hdrop] at hhead
          exact hhead
        refine ⟨n + 1, ?_⟩
        rw [Document.opening_cons hspace hc, allLines, skipSpace_cons hspace, ← hcons, ← allLines,
          hskip]

/-- A mark of an encoding would be what the document says first. -/
theorem dropByteOrderMark_of_opening (h : (opening false cs).head? ≠ some '\uFEFF') :
    dropByteOrderMark cs = cs := by
  unfold dropByteOrderMark
  split
  · exact absurd rfl h
  · rfl

/-! ## Words -/

theorem moreKeys_of_head (h : ∀ c ∈ cs.head?, c ≠ '.') (fuel : Nat) :
    moreKeys fuel cs = ([], cs) := by
  unfold moreKeys
  split
  · exact absurd rfl (h '.' rfl)
  · rfl

theorem exactly_of_head (h : ∀ e ∈ cs.head?, e ≠ c) : exactly c cs = none := by
  unfold exactly
  split
  · exact if_neg (h _ rfl)
  · rfl

section Word

variable (hne : word ≠ []) (hword : ∀ c ∈ word, isKeyChar c)
include hne hword

theorem head_of_word (rest : List Char) :
    ∃ c cs, word ++ rest = c :: cs ∧ ∀ e, isKeyChar e = false → c ≠ e := by
  obtain ⟨c, cs, rfl⟩ := List.exists_cons_of_ne_nil hne
  refine ⟨c, cs ++ rest, rfl, ?_⟩
  rintro e he rfl
  rw [hword c List.mem_cons_self] at he
  cases he

theorem skipSpace_word : skipSpace (word ++ rest) = word ++ rest := by
  obtain ⟨c, cs, hcons, hother⟩ := head_of_word hne hword rest
  rw [hcons]
  exact skipSpace_cons (by simp [isSpace, hother ' ' (by decide), hother '\t' (by decide)])

variable (hrest : ∀ c ∈ rest.head?, isKeyChar c = false)
include hrest

theorem simpleKey_word :
    simpleKey (word ++ rest) = some (String.ofList word, skipSpace rest) := by
  obtain ⟨c, cs, hcons, hother⟩ := head_of_word hne hword rest
  rw [simpleKey, skipSpace_word hne hword]
  split
  · next h => exact absurd (List.cons.inj (hcons.symm.trans h)).1 (hother _ (by decide))
  · next h => exact absurd (List.cons.inj (hcons.symm.trans h)).1 (hother _ (by decide))
  · rw [Scanner.takeWhile_append_stop hword hrest]
    simp [hne]

variable (hnext : ∀ c ∈ (skipSpace rest).head?, c ≠ '.' ∧ c ≠ '=')
include hnext

theorem entry_word (value : Reader Value) : entry value (word ++ rest) = none := by
  have hkey : key (word ++ rest) = some (([], String.ofList word), skipSpace rest) := by
    rw [key, simpleKey_word hne hword hrest]
    simp [moreKeys_of_head fun c hc => (hnext c hc).1, depthLimit]
  rw [entry, hkey]
  simp [exactly_of_head fun c hc => (hnext c hc).2]

/-- **A word that neither a dot nor an equals sign comes after begins no line.** -/
theorem allLines_word : allLines n d (word ++ rest) = none := by
  cases n with
  | zero => rfl
  | succ n =>
    obtain ⟨c, cs, hcons, hother⟩ := head_of_word hne hword rest
    have hline : line d (word ++ rest) = none := by
      unfold line
      split
      · next h => exact absurd (List.cons.inj (hcons.symm.trans h)).1 (hother _ (by decide))
      · rw [entry_word hne hword hrest hnext]
        rfl
    have hnone : ¬ (c = '#' ∨ c = '\n' ∨ c = '\r') := by
      simp [hother '#' (by decide), hother '\n' (by decide), hother '\r' (by decide)]
    rw [allLines, skipSpace_word hne hword]
    rw [hcons] at hline ⊢
    simp only [if_neg hnone, hline]
    rfl

end Word

end Toml

namespace Settings

/-- **A document that says nothing gives the standard settings.** -/
theorem eq_standard_of_opening {text : String} {s : Settings} (h : ofText? text = some s)
    (hsilent : opening false text.toList = []) : s = standard := by
  rw [ofText?, Toml.parse?, Toml.dropByteOrderMark_of_opening (by rw [hsilent]; simp)] at h
  obtain ⟨entries, hlines, hgiven⟩ := Option.bind_eq_some_iff.1 h
  rcases Toml.allLines_opening hlines with ⟨-, hclose⟩ | ⟨n, hlines⟩
  · obtain rfl := Option.some.inj hclose
    exact (Option.some.inj hgiven).symm
  · rw [hsilent] at hlines
    cases n with
    | zero => cases hlines
    | succ n =>
      obtain rfl := Option.some.inj hlines
      exact (Option.some.inj hgiven).symm

/-- **A document that begins with a bare key** goes on with a dot or an equals sign. -/
theorem exists_sign_of_opening {text : String} {s : Settings} {word rest : List Char}
    (h : ofText? text = some s) (hopens : opening false text.toList = word ++ rest)
    (hne : word ≠ []) (hword : ∀ c ∈ word, Document.isKeyChar c)
    (hrest : ∀ c ∈ rest.head?, Document.isKeyChar c = false) :
    ∃ c ∈ (rest.dropWhile Document.isSpace).head?, c = '.' ∨ c = '=' := by
  by_contra hnone
  have hnext : ∀ c ∈ (Toml.skipSpace rest).head?, c ≠ '.' ∧ c ≠ '=' := fun c hc =>
    ⟨fun hdot => hnone ⟨c, hc, .inl hdot⟩, fun hequals => hnone ⟨c, hc, .inr hequals⟩⟩
  have hmark : (opening false text.toList).head? ≠ some '\uFEFF' := by
    obtain ⟨c, word, rfl⟩ := List.exists_cons_of_ne_nil hne
    rw [hopens, List.cons_append, List.head?_cons]
    rintro ⟨⟩
    exact absurd (hword _ List.mem_cons_self) (by decide)
  rw [ofText?, Toml.parse?, Toml.dropByteOrderMark_of_opening hmark] at h
  obtain ⟨entries, hlines, -⟩ := Option.bind_eq_some_iff.1 h
  rcases Toml.allLines_opening hlines with ⟨hsilent, -⟩ | ⟨n, hlines⟩
  · rw [hopens] at hsilent
    exact hne (List.append_eq_nil_iff.1 hsilent).1
  · rw [hopens, Toml.allLines_word hne hword hrest hnext] at hlines
    cases hlines

/-- **The reader of settings goes by the rules for documents.** -/
theorem readsDocuments : ReadsDocuments ofText? :=
  ⟨eq_standard_of_opening, exists_sign_of_opening⟩

end Settings

end Curly
