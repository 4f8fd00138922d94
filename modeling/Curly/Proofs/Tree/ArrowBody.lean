import Curly.Proofs.Tree.Reading

/-!
# Bodies after an arrow

An arrow has no place in the grammar, and a function whose body follows one is refused right
there. `UpToArrow` tokens are what a program may begin with up to such an arrow: items, and a
function up to its body, at any depth. Reading gets through them and no further
(`run_upToArrow`), and there is no arrow among them (`UpToArrow.ne_arrow`).
-/

namespace Curly

/-- Whether the grammar has a place for tokens of this kind. -/
def Token.Kind.inGrammar : Token.Kind → Bool
  | .spacing | .newline | .comment | .identifier | .builtin _ | .string => true
  | .keyword .use_ | .keyword .enum | .keyword .fn => true
  | .colon | .comma | .operator | .lparen | .rparen | .lbrace | .rbrace => true
  | _ => false

namespace Grammar

variable {ts us : List Token} {t : Token}

/-- The grammar has a place for tokens of all their kinds. -/
def Known (ts : List Token) : Prop := ∀ t ∈ ts, t.kind.inGrammar

@[simp] theorem known_nil : Known [] := nofun

@[simp] theorem known_cons : Known (t :: ts) ↔ t.kind.inGrammar ∧ Known ts :=
  List.forall_mem_cons

@[simp] theorem known_append : Known (ts ++ us) ↔ Known ts ∧ Known us := List.forall_mem_append

theorem Spaces.known (h : Spaces ts) : Known ts := fun t ht => by rw [h t ht]; rfl

theorem inGrammar_of_isTrivia {kind : Token.Kind} (h : kind.isTrivia) : kind.inGrammar := by
  cases kind <;> first | rfl | cases h

theorem Trivia.known (h : Trivia ts) : Known ts := fun t ht => inGrammar_of_isTrivia (h t ht)

theorem Separators.known (h : Separators ts) : Known ts := by
  intro t ht
  rcases h t ht with htrivia | hcomma
  · exact inGrammar_of_isTrivia htrivia
  · rw [hcomma]
    rfl

theorem IsType.inGrammar (h : IsType t) : t.kind.inGrammar := by
  rcases h with h | ⟨b, h⟩ <;> rw [h] <;> rfl

theorem Spread.known {Gap : List Token → Prop} {names : List Token}
    (hgap : ∀ {ts}, Gap ts → Known ts) (h : Spread Gap ts names) : Known ts := by
  induction h with
  | last isGap => exact hgap isGap
  | name isGap isName _ ih =>
    rw [known_append, known_cons, isName]
    exact ⟨hgap isGap, rfl, ih⟩

theorem Entries.known {entries : Includes} (h : Entries ts entries) : Known ts := by
  cases h with
  | everything gapBefore isStar gapAfter =>
    simp only [Token.isOperator, Bool.and_eq_true, beq_iff_eq] at isStar
    rw [known_append, known_cons, isStar.1]
    exact ⟨gapBefore.known, rfl, gapAfter.known⟩
  | names spread => exact spread.known Separators.known

theorem Use.known {decl : UseDecl} (h : Use ts decl) : Known ts := by
  cases h with
  | plain isUse isGap isString =>
    simp [isUse, isString, isGap.known, Token.Kind.inGrammar]
  | including isUse isGap isString isGap₁ isColon isGap₂ isOpening listed isClosing =>
    simp [isUse, isString, isColon, isOpening, isClosing, isGap.known, isGap₁.known, isGap₂.known,
      listed.known, Token.Kind.inGrammar]

theorem Enum.known {decl : EnumDecl} (h : Enum ts decl) : Known ts := by
  cases h with
  | intro isEnum isGap isName isGap₁ isOpening spread isClosing =>
    simp [isEnum, isName, isOpening, isClosing, isGap.known, isGap₁.known,
      spread.known Trivia.known, Token.Kind.inGrammar]

theorem Params.known {params : List Param} (h : Params ts params) : Known ts := by
  induction h with
  | last isGap => exact isGap.known
  | param isGap isName isGap₁ isType _ ih =>
    rw [known_append, known_cons, known_append, known_cons, isName]
    exact ⟨isGap.known, rfl, isGap₁.known, isType.inGrammar, ih⟩

theorem Returns.known {returns : Option String} (h : Returns ts returns) : Known ts := by
  cases h with
  | none isGap => exact isGap.known
  | some isGap isType isGap₁ => simp [isGap.known, isGap₁.known, isType.inGrammar]

theorem Head.known {start : Position} {head : FnHead} (h : Head ts start head) : Known ts := by
  cases h with
  | intro isFn isGap isName isGap₁ isOpening listed isClosing isReturns =>
    simp [isFn, isName, isOpening, isClosing, isGap.known, isGap₁.known, listed.known,
      isReturns.known, Token.Kind.inGrammar]

/-- The grammar has a place for every token that derives. -/
theorem Items.known {nodes : List Node} (h : Items ts nodes) : Known ts := by
  induction h with
  | nil => exact known_nil
  | spacing ht _ ih | newline ht _ ih | comment ht _ ih =>
    rw [known_cons, ht]
    exact ⟨rfl, ih⟩
  | use_ isUse _ ih => exact known_append.2 ⟨isUse.known, ih⟩
  | enum isEnum _ ih => exact known_append.2 ⟨isEnum.known, ih⟩
  | fn isHead isOpening _ isClosing _ ihBody ih =>
    simp [isOpening, isClosing, isHead.known, ihBody, ih, Token.Kind.inGrammar]

/-- What a program may begin with up to an arrow that a body should follow. -/
inductive UpToArrow : List Token → Prop
  | head {hs : List Token} {start : Position} {head : FnHead} (isHead : Head hs start head) :
    UpToArrow hs
  | body {hs bs : List Token} {start : Position} {head : FnHead} {opening : Token}
    (isHead : Head hs start head) (isOpening : opening.kind = .lbrace) (inBody : UpToArrow bs) :
    UpToArrow (hs ++ opening :: bs)
  | items {ts us : List Token} {nodes : List Node} (isItems : Items ts nodes)
    (later : UpToArrow us) : UpToArrow (ts ++ us)

theorem UpToArrow.known (h : UpToArrow ts) : Known ts := by
  induction h with
  | head isHead => exact isHead.known
  | body isHead isOpening _ ih => simp [isHead.known, isOpening, ih, Token.Kind.inGrammar]
  | items isItems _ ih => exact known_append.2 ⟨isItems.known, ih⟩

/-- No arrow comes before. -/
theorem UpToArrow.ne_arrow (h : UpToArrow ts) : ∀ t ∈ ts, t.kind ≠ .arrow := by
  intro t ht harrow
  have hknown := h.known t ht
  rw [harrow] at hknown
  cases hknown

end Grammar

namespace Builder

open Grammar

variable {stop : Position} {ts rest : List Token} {t : Token}

theorem kindAhead?_upToArrow (h : UpToArrow ts) (rest : List Token) :
    kindAhead? (ts ++ rest) ≠ some .colon := by
  have hhead : ∀ {hs rest : List Token} {start : Position} {head : FnHead}, Head hs start head →
      kindAhead? (hs ++ rest) ≠ some .colon := by
    intro hs rest start head isHead
    cases isHead with
    | intro isFn =>
      rw [List.cons_append, kindAhead?_of_not_passable (by rw [isFn]; rfl), isFn]
      decide
  induction h with
  | head isHead => exact hhead isHead
  | body isHead =>
    rw [List.append_assoc]
    exact hhead isHead
  | items isItems _ ih =>
    rw [List.append_assoc]
    exact kindAhead?_items isItems ih

/-- **The arrow before a body is refused**, and nothing before it. -/
theorem run_upToArrow (h : UpToArrow ts) (ht : t.kind = .arrow) :
    ∀ (outer : List OpenFn) (done : List Node), ∃ r,
      run .program stop ⟨outer, done, .item⟩ (ts ++ t :: rest) = .error r ∧
        r.error = .ofToken (.notImplemented .arrowBodies) t := by
  induction h with
  | @head hs start head isHead =>
    intro outer done
    obtain ⟨slot, hawaits, hrun⟩ : ∃ slot, AwaitsBody start head slot ∧
        run .program stop ⟨outer, done, .item⟩ (hs ++ t :: rest) =
          run .program stop ((⟨outer, done, .item⟩ : Builder).await slot) (t :: rest) :=
      run_head rfl isHead
    have hread := hawaits.read_eq (b := ⟨outer, done, .item⟩) (not_isType_of_kind ht (by simp)) rest
    simp only [readBody, ht] at hread
    exact ⟨_, hrun.trans (run_of_refuse (reached_of_slot hawaits.slot_ne) hread), rfl⟩
  | @body hs bs start head opening isHead isOpening _ ih =>
    intro outer done
    obtain ⟨slot, hawaits, hrun⟩ : ∃ slot, AwaitsBody start head slot ∧
        run .program stop ⟨outer, done, .item⟩ (hs ++ opening :: (bs ++ t :: rest)) =
          run .program stop ((⟨outer, done, .item⟩ : Builder).await slot)
            (opening :: (bs ++ t :: rest)) := run_head rfl isHead
    have hread := hawaits.read_eq (b := ⟨outer, done, .item⟩)
      (not_isType_of_kind isOpening (by simp)) (bs ++ t :: rest)
    simp only [readBody, isOpening] at hread
    rw [List.append_assoc, List.cons_append, hrun,
      run_of_read (reached_of_slot hawaits.slot_ne) hread]
    exact ih _ _
  | items isItems later ih =>
    intro outer done
    rw [List.append_assoc, run_items isItems (kindAhead?_upToArrow later _)]
    exact ih _ _

end Builder

end Curly
