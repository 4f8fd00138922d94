import Curly.Proofs.Tree.Legal
import Curly.Proofs.Tree.Parsing
import Curly.Proofs.Tree.Shape
import Mathlib.Data.List.DropRight

/-!
# Well-formed trees

What every node of a parsed source is like, however deep it stands: its names are words that are
not reserved, its specifiers stay on their line, and its comments are what a line may end in. The
names and types of declarations are `Legal`, which is put here in terms of the reserved words, and
comments are added to them. `Source.wellFormed_of_parse` says it of all nodes of the tree.
-/

namespace Curly

/-- A word that is no keyword. -/
def IsUnreserved (s : String) : Prop := IsWord s.toList ∧ ∀ k : Keyword, k.spelling ≠ s

/-- A word that is neither a keyword nor the name of a built-in type. -/
def IsFree (s : String) : Prop := IsUnreserved s ∧ ∀ t : BuiltinType, t.spelling ≠ s

/-- A hash and what comes after it on its line, up to the last character that is not blank. -/
structure IsCommentText (text : String) : Prop where
  hash : text.toList.head? = some '#'
  oneLine : '\n' ∉ text.toList
  trimmed : ∀ c ∈ text.toList.getLast?, Text.isBlank c = false

/-- What the texts of a node are like. Nothing is said of the nodes in its body. -/
def Node.WellFormed : Node → Prop
  | .comment text _ => IsCommentText text
  | .newline _ | .spacing _ => True
  | .use_ d => (∀ c ∈ d.specifier.toList, c ≠ '\'' ∧ c ≠ '\r' ∧ c ≠ '\n') ∧
      ∀ ns, d.includes = some (.names ns) → ns ≠ [] ∧ ∀ n ∈ ns, IsFree n
  | .enum d => IsFree d.name ∧ ∀ v ∈ d.values, IsFree v.name
  | .fn head _ _ => IsFree head.name ∧ (∀ p ∈ head.params, IsFree p.name ∧ IsUnreserved p.type) ∧
      (∀ type ∈ head.returns, IsUnreserved type) ∧ head.arrow = false

/-! ## Texts -/

theorem IsTypeName.isUnreserved {s : String} (h : IsTypeName s) : IsUnreserved s := by
  obtain ⟨hword, hkind⟩ := h
  refine ⟨hword, fun k hk => ?_⟩
  rcases hkind with hkind | ⟨b, hkind⟩
  · cases hkind with
    | identifier noKeyword => exact noKeyword k (congrArg String.toList hk)
  · cases hkind with
    | builtin _ _ noKeyword => exact noKeyword k (congrArg String.toList hk)

theorem IsName.isFree {s : String} (h : IsName s) : IsFree s := by
  refine ⟨h.isTypeName.isUnreserved, fun t ht => ?_⟩
  cases h.2 with
  | identifier _ noBuiltin => exact noBuiltin t (congrArg String.toList ht)

/-- A hash is not blank, so a comment keeps it when it is trimmed. -/
theorem isCommentText_trim {body : List Char} (h : '\n' ∉ body) :
    IsCommentText (String.ofList (Text.trim ('#' :: body))) := by
  have htrim : Text.trim ('#' :: body) = List.rdropWhile Text.isBlank ('#' :: body) := rfl
  have hne : List.rdropWhile Text.isBlank ('#' :: body) ≠ [] := fun hnil =>
    absurd (List.rdropWhile_eq_nil_iff.1 hnil '#' List.mem_cons_self) (by decide)
  have hstart := List.rdropWhile_prefix Text.isBlank (l := '#' :: body)
  rw [htrim]
  constructor <;> rw [String.toList_ofList]
  · obtain ⟨c, cs, hcons⟩ := List.exists_cons_of_ne_nil hne
    rw [hcons] at hstart ⊢
    rw [(List.cons_prefix_cons.1 hstart).1, List.head?_cons]
  · intro hmem
    rcases List.mem_cons.1 (hstart.subset hmem) with hn | hn
    · cases hn
    · exact h hn
  · intro c hc
    have hlast := List.rdropWhile_last_not Text.isBlank ('#' :: body) hne
    rw [List.getLast?_eq_some_getLast hne, Option.mem_some_iff] at hc
    rw [hc] at hlast
    simpa using hlast

theorem Token.IsSpelled.isCommentText {t : Token} (h : t.IsSpelled) (ht : t.kind = .comment) :
    IsCommentText t.text := by
  obtain ⟨p, lexeme, hlexeme, hspelled⟩ := h
  rw [ht] at hlexeme hspelled
  obtain ⟨body, rfl, hbody⟩ := hlexeme.exists_comment
  rw [hspelled, Token.ofLexeme_text]
  exact isCommentText_trim hbody

/-! ## Declarations -/

theorem UseDecl.Legal.wellFormed {d : UseDecl} (h : d.Legal) : (Node.use_ d).WellFormed := by
  refine ⟨h.specifier, fun ns hns => ?_⟩
  cases h.includes _ hns with
  | names nonempty areNames => exact ⟨nonempty, fun n hn => (areNames n hn).isFree⟩

theorem EnumDecl.Legal.wellFormed {d : EnumDecl} (h : d.Legal) : (Node.enum d).WellFormed :=
  ⟨h.name.isFree, fun v hv => (h.values v hv).isFree⟩

theorem FnHead.Legal.wellFormed {head : FnHead} (h : head.Legal) (body : List Node) (span : Span) :
    (Node.fn head body span).WellFormed :=
  ⟨h.name.isFree, fun p hp => ⟨(h.params p hp).1.isFree, (h.params p hp).2.isUnreserved⟩,
    fun type htype => (h.returns type htype).isUnreserved, h.braces⟩

/-! ## Trees -/

/-- **What derives from spelled tokens is well formed** at every depth. -/
theorem Grammar.Items.wellFormed {ts : List Token} {nodes : List Node} (h : Items ts nodes)
    (hts : Spelled ts) : ∀ n : Node, n.Within nodes → n.WellFormed := by
  have hleaf : ∀ n : Node, n.Within [] → n.WellFormed := fun n hn =>
    absurd hn Node.not_within_nil
  induction h with
  | nil => exact hleaf
  | spacing _ _ ih | newline _ _ ih =>
    exact Node.forall_within_cons.2 ⟨trivial, hleaf, ih (spelled_cons.1 hts).2⟩
  | comment isComment _ ih =>
    obtain ⟨hcomment, hlater⟩ := spelled_cons.1 hts
    exact Node.forall_within_cons.2 ⟨hcomment.isCommentText isComment, hleaf, ih hlater⟩
  | use_ isUse _ ih =>
    obtain ⟨huse, hlater⟩ := spelled_append.1 hts
    exact Node.forall_within_cons.2 ⟨(isUse.legal huse).wellFormed, hleaf, ih hlater⟩
  | enum isEnum _ ih =>
    obtain ⟨henum, hlater⟩ := spelled_append.1 hts
    exact Node.forall_within_cons.2 ⟨(isEnum.legal henum).wellFormed, hleaf, ih hlater⟩
  | fn isHead _ _ _ _ ihBody ih =>
    simp only [spelled_cons, spelled_append] at hts
    obtain ⟨hhead, -, hbody, -, hlater⟩ := hts
    exact Node.forall_within_cons.2 ⟨(isHead.legal hhead).wellFormed _ _, ihBody hbody, ih hlater⟩

/-- **Every node of a parsed source is well formed**, however deep it stands. -/
theorem Source.wellFormed_of_parse {src : Source} {p : Program} (h : src.parse = .ok p) :
    ∀ n : Node, n.Within p.children → n.WellFormed := by
  obtain ⟨ts, hcut, -, -, hitems⟩ := exists_items_of_parse h
  exact hitems.wellFormed hcut.isSpelled

/-- A comment that ends in a blank, and an import, in the body of a function with a parameter. -/
theorem Source.wellFormed_of_parse_nested :
    ∃ p, (⟨"a", "fn f(n i32) str \x7b# c \nuse 'b':\x7bd\x7d\x7d"⟩ : Source).parse = .ok p ∧
      p.children.length = 1 ∧ ∀ n : Node, n.Within p.children → n.WellFormed := by
  have hparse : (⟨"a", "fn f(n i32) str \x7b# c \nuse 'b':\x7bd\x7d\x7d"⟩ : Source).parse =
      .ok ⟨"a", [.fn ⟨"f", [⟨"n", "i32"⟩], some "str", false⟩
        [.comment "# c" ⟨⟨1, 18, 17⟩, ⟨1, 22, 21⟩⟩, .newline ⟨⟨1, 22, 21⟩, ⟨2, 1, 22⟩⟩,
          .use_ ⟨"b", some (.names ["d"]), ⟨⟨2, 1, 22⟩, ⟨2, 12, 33⟩⟩⟩]
        ⟨⟨1, 1, 0⟩, ⟨2, 13, 34⟩⟩]⟩ := by decide +kernel
  exact ⟨_, hparse, rfl, wellFormed_of_parse hparse⟩

end Curly
