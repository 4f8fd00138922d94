import Curly.Proofs.Token.Sequence
import Curly.Proofs.Tree.Grammar

/-!
# Legal trees

What the names, types and specifiers of a tree are if it has been read from a text: they can be
spelled again. `Legal` says so of a list of nodes and of the bodies in it, and `Items.legal` that
what derives from the tokens of a text is legal.
-/

namespace Curly

/-- The text of an identifier. -/
def IsName (s : String) : Prop := IsWord s.toList ∧ WordKind s.toList .identifier

/-- The text of an identifier or of a built-in type. -/
def IsTypeName (s : String) : Prop :=
  IsWord s.toList ∧ (WordKind s.toList .identifier ∨ ∃ b, WordKind s.toList (.builtin b))

theorem IsName.isTypeName {s : String} (h : IsName s) : IsTypeName s := ⟨h.1, .inl h.2⟩

theorem IsTypeName.exists_kind {s : String} (h : IsTypeName s) :
    ∃ kind, WordKind s.toList kind := by
  obtain ⟨-, hkind | ⟨b, hkind⟩⟩ := h
  · exact ⟨_, hkind⟩
  · exact ⟨_, hkind⟩

/-- A text that may stand between single quotes. -/
def IsSpecifier (s : String) : Prop := ∀ c ∈ s.toList, c ≠ '\'' ∧ c ≠ '\r' ∧ c ≠ '\n'

/-- What is listed after an import is a wildcard or at least one name. -/
inductive Includes.Legal : Includes → Prop
  | everything : Includes.Legal .everything
  | names {ns : List String} (nonempty : ns ≠ []) (areNames : ∀ n ∈ ns, IsName n) :
    Includes.Legal (.names ns)

structure UseDecl.Legal (d : UseDecl) : Prop where
  specifier : IsSpecifier d.specifier
  includes : ∀ entries ∈ d.includes, entries.Legal

structure EnumDecl.Legal (d : EnumDecl) : Prop where
  name : IsName d.name
  values : ∀ v ∈ d.values, IsName v.name

structure FnHead.Legal (h : FnHead) : Prop where
  name : IsName h.name
  params : ∀ p ∈ h.params, IsName p.name ∧ IsTypeName p.type
  returns : ∀ type ∈ h.returns, IsTypeName type
  braces : h.arrow = false

/-- Nodes whose declarations are legal at every depth. -/
inductive Legal : List Node → Prop
  | nil : Legal []
  | trivia {n : Node} {ns : List Node} (isTrivia : n.isTrivia) (later : Legal ns) :
    Legal (n :: ns)
  | use_ {d : UseDecl} {ns : List Node} (decl : d.Legal) (later : Legal ns) :
    Legal (.use_ d :: ns)
  | enum {d : EnumDecl} {ns : List Node} (decl : d.Legal) (later : Legal ns) :
    Legal (.enum d :: ns)
  | fn {head : FnHead} {body ns : List Node} {span : Span} (isHead : head.Legal)
    (isBody : Legal body) (later : Legal ns) : Legal (.fn head body span :: ns)

/-! ## Tokens that are spelled -/

namespace Token.IsSpelled

variable {t : Token}

/-- A word is the text of its token. -/
theorem word (h : t.IsSpelled) {kind : Token.Kind} (ht : t.kind = kind)
    (hfixed : ∀ x ∈ fixedLexemes, x.2 ≠ kind)
    (hkind : kind = .identifier ∨ ∃ b, kind = .builtin b) :
    IsWord t.text.toList ∧ WordKind t.text.toList kind := by
  obtain ⟨p, lexeme, hlexeme, hspelled⟩ := h
  rw [ht] at hlexeme hspelled
  have htext : t.text = String.ofList lexeme := by
    rw [hspelled, ofLexeme_text]
    rcases hkind with rfl | ⟨b, rfl⟩ <;> rfl
  rw [htext, String.toList_ofList]
  cases hlexeme with
  | fixed listed => exact absurd rfl (hfixed _ listed)
  | word isWord isKind => exact ⟨isWord, isKind⟩
  | comment | string | template | integer | float => rcases hkind with hk | ⟨b, hk⟩ <;> cases hk

theorem isName (h : t.IsSpelled) (ht : t.kind = .identifier) : IsName t.text :=
  h.word ht (by decide) (.inl rfl)

theorem isTypeName (h : t.IsSpelled) (ht : Grammar.IsType t) : IsTypeName t.text := by
  rcases ht with ht | ⟨b, ht⟩
  · obtain ⟨hword, hkind⟩ := h.word ht (by decide) (.inl rfl)
    exact ⟨hword, .inl hkind⟩
  · have hfixed : ∀ x ∈ fixedLexemes, x.2 ≠ .builtin b := by cases b <;> decide
    obtain ⟨hword, hkind⟩ := h.word ht hfixed (.inr ⟨b, rfl⟩)
    exact ⟨hword, .inr ⟨b, hkind⟩⟩

theorem isSpecifier (h : t.IsSpelled) (ht : t.kind = .string) : IsSpecifier t.text := by
  obtain ⟨p, lexeme, hlexeme, hspelled⟩ := h
  rw [ht] at hlexeme hspelled
  cases hlexeme with
  | fixed listed =>
    have all : ∀ x ∈ fixedLexemes, x.2 ≠ .string := by decide
    exact absurd rfl (all _ listed)
  | @string body inside =>
    have htext : t.text.toList = body := by
      rw [hspelled, ofLexeme_text]
      simp [Token.Kind.literal]
    rw [IsSpecifier, htext]
    exact inside
  | word _ isKind => cases isKind

end Token.IsSpelled

/-! ## What derives from the tokens of a text -/

namespace Grammar

variable {ts names : List Token}

/-- All tokens of a list are spelled. -/
def Spelled (ts : List Token) : Prop := ∀ t ∈ ts, t.IsSpelled

@[simp] theorem spelled_cons {t : Token} : Spelled (t :: ts) ↔ t.IsSpelled ∧ Spelled ts :=
  List.forall_mem_cons

@[simp] theorem spelled_append {us : List Token} :
    Spelled (ts ++ us) ↔ Spelled ts ∧ Spelled us :=
  List.forall_mem_append

theorem Spread.isName {Gap : List Token → Prop} (h : Spread Gap ts names) (hts : Spelled ts) :
    ∀ t ∈ names, IsName t.text := by
  induction h with
  | last => simp
  | name _ isName _ ih =>
    rw [spelled_append, spelled_cons] at hts
    obtain ⟨-, ht, hts⟩ := hts
    exact List.forall_mem_cons.2 ⟨ht.isName isName, ih hts⟩

theorem Entries.legal {entries : Includes} (h : Entries ts entries) (hts : Spelled ts) :
    entries.Legal := by
  cases h with
  | everything => exact .everything
  | names spread nonempty =>
    refine .names (by simpa using nonempty) fun n hn => ?_
    obtain ⟨t, ht, rfl⟩ := List.mem_map.1 hn
    exact spread.isName hts t ht

theorem Use.legal {d : UseDecl} (h : Use ts d) (hts : Spelled ts) : d.Legal := by
  cases h with
  | plain _ _ isString =>
    simp only [spelled_cons, spelled_append] at hts
    obtain ⟨-, -, hstring, -⟩ := hts
    exact ⟨hstring.isSpecifier isString, by simp⟩
  | including _ _ isString _ _ _ _ listed =>
    simp only [spelled_cons, spelled_append] at hts
    obtain ⟨-, -, hstring, -, -, -, -, hlisted, -⟩ := hts
    exact ⟨hstring.isSpecifier isString, by simpa using listed.legal hlisted⟩

theorem Enum.legal {d : EnumDecl} (h : Enum ts d) (hts : Spelled ts) : d.Legal := by
  cases h with
  | intro _ _ isName _ _ spread =>
    simp only [spelled_cons, spelled_append] at hts
    obtain ⟨-, -, hname, -, -, hvalues, -⟩ := hts
    refine ⟨hname.isName isName, fun v hv => ?_⟩
    obtain ⟨t, ht, rfl⟩ := List.mem_map.1 hv
    exact spread.isName hvalues t ht

theorem Params.legal {params : List Param} (h : Params ts params) (hts : Spelled ts) :
    ∀ p ∈ params, IsName p.name ∧ IsTypeName p.type := by
  induction h with
  | last => simp
  | param _ isName _ isType _ ih =>
    simp only [spelled_cons, spelled_append] at hts
    obtain ⟨-, hname, -, htype, hts⟩ := hts
    exact List.forall_mem_cons.2 ⟨⟨hname.isName isName, htype.isTypeName isType⟩, ih hts⟩

theorem Returns.legal {returns : Option String} (h : Returns ts returns) (hts : Spelled ts) :
    ∀ type ∈ returns, IsTypeName type := by
  cases h with
  | none => simp
  | some _ isType =>
    simp only [spelled_cons, spelled_append] at hts
    obtain ⟨-, htype, -⟩ := hts
    rintro _ ⟨⟩
    exact htype.isTypeName isType

theorem Head.legal {start : Position} {head : FnHead} (h : Head ts start head)
    (hts : Spelled ts) : head.Legal := by
  cases h with
  | intro _ _ isName _ _ listed _ isReturns =>
    simp only [spelled_cons, spelled_append] at hts
    obtain ⟨-, -, hname, -, -, hparams, -, hreturns⟩ := hts
    exact ⟨hname.isName isName, listed.legal hparams, isReturns.legal hreturns, rfl⟩

/-- **What derives from spelled tokens is legal.** -/
theorem Items.legal {nodes : List Node} (h : Items ts nodes) (hts : Spelled ts) :
    Legal nodes := by
  induction h with
  | nil => exact .nil
  | spacing _ _ ih | newline _ _ ih | comment _ _ ih =>
    exact .trivia rfl (ih (spelled_cons.1 hts).2)
  | use_ isUse _ ih =>
    obtain ⟨huse, hlater⟩ := spelled_append.1 hts
    exact .use_ (isUse.legal huse) (ih hlater)
  | enum isEnum _ ih =>
    obtain ⟨henum, hlater⟩ := spelled_append.1 hts
    exact .enum (isEnum.legal henum) (ih hlater)
  | fn isHead _ _ _ _ ihBody ih =>
    simp only [spelled_cons, spelled_append] at hts
    obtain ⟨hhead, -, hbody, -, hlater⟩ := hts
    exact .fn (isHead.legal hhead) (ihBody hbody) (ih hlater)

end Grammar

end Curly
