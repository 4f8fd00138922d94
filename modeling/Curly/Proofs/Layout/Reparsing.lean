import Curly.Proofs.Layout.Printed
import Curly.Proofs.Tree.Shape

/-!
# Reading canonical text

The pieces of a legal tree derive from the grammar, wherever they are placed, and give a tree of
the same shape (`rereads_of_legal`), as long as no function in it has a body of one declaration.
-/

namespace Curly.Layout

open Piece Grammar

variable {unit : List Char} {d : Nat} {p : Position} {ns ms : List Node} {ts us : List Token}

/-- The tokens derive nodes of the same shape as these. -/
def Rereads (ts : List Token) (ns : List Node) : Prop := ∃ ms, Items ts ms ∧ SameShape ms ns

/-! ## Gaps -/

theorem kind_of_mem_lineBreak {t : Token} (h : t ∈ place p (lineBreak unit d)) :
    t.kind = .spacing ∨ t.kind = .newline := by
  obtain ⟨x, hx, q, rfl⟩ := exists_of_mem_place h
  rcases List.mem_cons.1 hx with rfl | hx
  · exact .inr rfl
  · obtain ⟨c, -, rfl⟩ := List.mem_map.1 hx
    exact .inl rfl

theorem trivia_lineBreak (p : Position) (d : Nat) : Trivia (place p (lineBreak unit d)) := by
  intro t ht
  rcases kind_of_mem_lineBreak ht with h | h <;> rw [h] <;> rfl

theorem spaces_space (p : Position) : Spaces [space.token p] := by
  intro t ht
  rw [List.mem_singleton.1 ht]
  rfl

theorem spaces_nil : Spaces [] := by simp [Spaces]

theorem trivia_nil : Trivia [] := by simp [Trivia]

theorem token_word_kind {s : String} (h : IsName s) (p : Position) :
    ((word s).token p).kind = .identifier := word_kind h.2

theorem token_word_text {s : String} (h : IsTypeName s) (p : Position) :
    ((word s).token p).text = s := by
  obtain ⟨kind, hkind⟩ := h.exists_kind
  rw [token_text, word_kind hkind, word_lexeme, Scanner.literal_of_wordKind hkind,
    String.ofList_toList]

theorem isType_word {s : String} (h : IsTypeName s) (p : Position) :
    IsType ((word s).token p) := by
  obtain ⟨-, hkind | ⟨b, hkind⟩⟩ := h
  · exact .inl (word_kind hkind)
  · exact .inr ⟨b, word_kind hkind⟩

/-! ## Entries -/

/-- Names on lines of their own. -/
theorem exists_spread_lines (unit : List Char) {Gap : List Token → Prop}
    (hgap : ∀ ts, Trivia ts → Gap ts) {β : Type} {f : β → String} {xs : List β}
    (h : ∀ x ∈ xs, IsName (f x)) (d : Nat) (p : Position) :
    ∃ names, Spread Gap (place p ((xs.map fun x => [word (f x)]).flatMap
      (fun e => lineBreak unit (d + 1) ++ e) ++ lineBreak unit d)) names ∧
        names.map Token.text = xs.map f := by
  induction xs generalizing p with
  | nil => exact ⟨[], .last (hgap _ (trivia_lineBreak p d)), rfl⟩
  | cons x xs ih =>
    obtain ⟨hx, hxs⟩ := List.forall_mem_cons.1 h
    have hsplit : ((x :: xs).map fun x => [word (f x)]).flatMap
        (fun e => lineBreak unit (d + 1) ++ e) ++ lineBreak unit d =
          lineBreak unit (d + 1) ++ word (f x) ::
            ((xs.map fun x => [word (f x)]).flatMap (fun e => lineBreak unit (d + 1) ++ e) ++
              lineBreak unit d) := by
      simp
    rw [hsplit, place_append, place_cons]
    obtain ⟨names, hnames, htexts⟩ := ih hxs _
    refine ⟨_, .name (hgap _ (trivia_lineBreak p (d + 1))) (token_word_kind hx _) hnames, ?_⟩
    rw [List.map_cons, htexts, token_word_text hx.isTypeName, List.map_cons]

theorem exists_spread (unit : List Char) {Gap : List Token → Prop}
    (hgap : ∀ ts, Trivia ts → Gap ts) {β : Type} {f : β → String} {xs : List β}
    (h : ∀ x ∈ xs, IsName (f x)) (d : Nat) (p : Position) :
    ∃ names, Spread Gap (place p (entryPieces unit d (xs.map fun x => [word (f x)]))) names ∧
      names.map Token.text = xs.map f := by
  rw [entryPieces]
  split
  · have hxs : xs = [] := by simpa using ‹(xs.map fun x => [word (f x)]).isEmpty = true›
    rw [hxs]
    exact ⟨[], .last (hgap [] trivia_nil), rfl⟩
  · exact exists_spread_lines unit hgap h d p

/-- A parameter whose tokens have the texts of `q`. -/
theorem params_cons {q : Param} {gap gap₁ : List Token} {name type : Token} {params : List Param}
    (hgap : Trivia gap) (hname : name.kind = .identifier) (hgap₁ : Spaces gap₁)
    (htype : IsType type) (hlater : Params ts params) (hnameText : name.text = q.name)
    (htypeText : type.text = q.type) :
    Params (gap ++ name :: (gap₁ ++ type :: ts)) (q :: params) := by
  obtain ⟨_, _⟩ := q
  obtain rfl := hnameText
  obtain rfl := htypeText
  exact .param hgap hname hgap₁ htype hlater

/-- Parameters on lines of their own. -/
theorem params_lines {params : List Param}
    (h : ∀ q ∈ params, IsName q.name ∧ IsTypeName q.type) (d : Nat) (p : Position) :
    Params (place p ((params.map paramPieces).flatMap
      (fun e => lineBreak unit (d + 1) ++ e) ++ lineBreak unit d)) params := by
  induction params generalizing p with
  | nil => exact .last (trivia_lineBreak p d)
  | cons q params ih =>
    obtain ⟨⟨hname, htype⟩, hparams⟩ := List.forall_mem_cons.1 h
    have hsplit : ((q :: params).map paramPieces).flatMap
        (fun e => lineBreak unit (d + 1) ++ e) ++ lineBreak unit d =
          lineBreak unit (d + 1) ++ word q.name :: space :: word q.type ::
            ((params.map paramPieces).flatMap (fun e => lineBreak unit (d + 1) ++ e) ++
              lineBreak unit d) := by
      simp [paramPieces]
    rw [hsplit, place_append, place_cons, place_cons, place_cons]
    exact params_cons (trivia_lineBreak p (d + 1)) (token_word_kind hname _) (spaces_space _)
      (isType_word htype _) (ih hparams _) (token_word_text hname.isTypeName _)
      (token_word_text htype _)

theorem params_pieces {params : List Param}
    (h : ∀ q ∈ params, IsName q.name ∧ IsTypeName q.type) (d : Nat) (p : Position) :
    Params (place p (entryPieces unit d (params.map paramPieces))) params := by
  rw [entryPieces]
  split
  · have hparams : params = [] := by simpa using ‹(params.map paramPieces).isEmpty = true›
    rw [hparams]
    exact .last trivia_nil
  · exact params_lines h d p

/-! ## Declarations -/

theorem token_quoted_text (s : String) (p : Position) : ((quoted s).token p).text = s := by
  simp [quoted, Token.Kind.literal]

theorem separators_of_trivia (h : Trivia ts) : Separators ts := fun t ht => .inl (h t ht)

theorem entries_asterisk (p : Position) : Entries [asterisk.token p] .everything := by
  have hnil : Separators [] := by simp [Separators]
  show Entries ([] ++ asterisk.token p :: []) .everything
  exact .everything hnil rfl hnil

theorem entries_names {ns : List String} (hne : ns ≠ []) (h : ∀ n ∈ ns, IsName n) (d : Nat)
    (p : Position) :
    Entries (place p (entryPieces unit d (ns.map fun n => [word n]))) (.names ns) := by
  obtain ⟨names, hspread, htexts⟩ :=
    exists_spread unit (fun _ => separators_of_trivia) (f := id) h d p
  rw [List.map_id] at htexts
  have hnames : names ≠ [] := by
    rintro rfl
    exact hne htexts.symm
  rw [← htexts] at hspread ⊢
  exact .names hspread hnames

theorem use_plain {specifier : String} {keyword string : Token} {gap : List Token}
    (hkeyword : keyword.kind = .keyword .use_) (hgap : Spaces gap) (hstring : string.kind = .string)
    (htext : string.text = specifier) :
    Use (keyword :: (gap ++ [string]))
      ⟨specifier, none, ⟨keyword.span.start, string.span.stop⟩⟩ := by
  rw [← htext]
  exact .plain hkeyword hgap hstring

theorem use_including {specifier : String} {keyword string colon opening closing : Token}
    {gap ts : List Token} {entries : Includes} (hkeyword : keyword.kind = .keyword .use_)
    (hgap : Spaces gap) (hstring : string.kind = .string) (htext : string.text = specifier)
    (hcolon : colon.kind = .colon) (hopening : opening.kind = .lbrace)
    (hentries : Entries ts entries) (hclosing : closing.kind = .rbrace) :
    Use (keyword :: (gap ++ string :: colon :: opening :: (ts ++ [closing])))
      ⟨specifier, some entries, ⟨keyword.span.start, closing.span.stop⟩⟩ := by
  rw [← htext]
  exact .including hkeyword hgap hstring spaces_nil hcolon spaces_nil hopening hentries hclosing

theorem exists_use (unit : List Char) {decl : UseDecl} (h : decl.Legal) (d : Nat) (p : Position) :
    ∃ span, Use (place p (usePieces unit d decl)) ⟨decl.specifier, decl.includes, span⟩ := by
  obtain ⟨specifier, _ | _ | ns, span⟩ := decl
  · exact ⟨_, use_plain rfl (spaces_space _) rfl (token_quoted_text specifier _)⟩
  · exact ⟨_, use_including rfl (spaces_space _) rfl (token_quoted_text specifier _) rfl rfl
      (entries_asterisk _) rfl⟩
  · obtain - | ⟨hne, hns⟩ := h.includes _ rfl
    simp only [usePieces, includesPieces, place_append, place_cons, place_nil, List.cons_append,
      List.nil_append]
    exact ⟨_, use_including rfl (spaces_space _) rfl (token_quoted_text specifier _) rfl rfl
      (entries_names hne hns d _) rfl⟩

theorem enum_intro {n : String} {keyword name opening closing : Token}
    {gap gap₁ values : List Token} (hkeyword : keyword.kind = .keyword .enum) (hgap : Spaces gap)
    (hname : name.kind = .identifier) (htext : name.text = n) (hgap₁ : Spaces gap₁)
    (hopening : opening.kind = .lbrace) (hspread : Spread Trivia ts values)
    (hclosing : closing.kind = .rbrace) :
    Enum (keyword :: (gap ++ name :: (gap₁ ++ opening :: (ts ++ [closing]))))
      ⟨n, values.map valueOf, ⟨keyword.span.start, closing.span.stop⟩⟩ := by
  rw [← htext]
  exact .intro hkeyword hgap hname hgap₁ hopening hspread hclosing

theorem exists_enum (unit : List Char) {decl : EnumDecl} (h : decl.Legal) (d : Nat) (p : Position) :
    ∃ values span, Enum (place p (enumPieces unit d decl)) ⟨decl.name, values, span⟩ ∧
      values.map EnumValue.name = decl.values.map EnumValue.name := by
  simp only [enumPieces, place_append, place_cons, place_nil, List.cons_append, List.nil_append]
  obtain ⟨names, hspread, htexts⟩ := exists_spread unit (fun _ h => h) h.values d _
  refine ⟨names.map valueOf, _, enum_intro rfl (spaces_space _) (token_word_kind h.name _)
    (token_word_text h.name.isTypeName _) (spaces_space _) rfl hspread rfl, ?_⟩
  rw [List.map_map, ← htexts]
  rfl

theorem head_intro {n : String} {keyword name opening closing : Token} {gap gap₁ rs : List Token}
    {params : List Param} {returns : Option String} (hkeyword : keyword.kind = .keyword .fn)
    (hgap : Spaces gap) (hname : name.kind = .identifier) (htext : name.text = n)
    (hgap₁ : Spaces gap₁) (hopening : opening.kind = .lparen) (hparams : Params ts params)
    (hclosing : closing.kind = .rparen) (hreturns : Returns rs returns) :
    Head (keyword :: (gap ++ name :: (gap₁ ++ opening :: (ts ++ closing :: rs))))
      keyword.span.start ⟨n, params, returns, false⟩ := by
  rw [← htext]
  exact .intro hkeyword hgap hname hgap₁ hopening hparams hclosing hreturns

theorem returns_pieces {returns : Option String} (h : ∀ type ∈ returns, IsTypeName type)
    (p q : Position) : Returns (space.token p :: place q (returnsPieces returns)) returns := by
  cases returns with
  | none => exact .none (spaces_space p)
  | some type =>
    have htype := h type rfl
    have hsome := Returns.some (spaces_space p) (isType_word htype q)
      (spaces_space (q.after (word type).lexeme))
    rw [token_word_text htype] at hsome
    exact hsome

theorem head_pieces {head : FnHead} (h : head.Legal) (d : Nat) (p : Position) :
    Head (place p (headPieces unit d head)) p head := by
  obtain ⟨name, params, returns, arrow⟩ := head
  obtain rfl := h.braces
  simp only [headPieces, place_append, place_cons, List.cons_append, List.nil_append,
    List.append_assoc]
  exact head_intro rfl (spaces_space _) (token_word_kind h.name _)
    (token_word_text h.name.isTypeName _) spaces_nil rfl (params_pieces h.params d _) rfl
    (returns_pieces h.returns _ _)

/-! ## Trees -/

theorem Rereads.append (h : Rereads ts ns) (h' : Rereads us ms) :
    Rereads (ts ++ us) (ns ++ ms) := by
  obtain ⟨ns', hitems, hshape⟩ := h
  obtain ⟨ms', hitems', hshape'⟩ := h'
  exact ⟨ns' ++ ms', hitems.append hitems', hshape.append hshape'⟩

/-- Blanks and line ends. -/
def Blanks (xs : List Piece) : Prop := ∀ x ∈ xs, x.kind = .spacing ∨ x.kind = .newline

theorem blanks_nil : Blanks [] := by simp [Blanks]

theorem blanks_lineBreak (unit : List Char) (d : Nat) : Blanks (lineBreak unit d) := by
  intro x hx
  rcases List.mem_cons.1 hx with rfl | hx
  · exact .inr rfl
  · obtain ⟨c, -, rfl⟩ := List.mem_map.1 hx
    exact .inl rfl

theorem rereads_blanks {xs : List Piece} (h : Blanks xs) (p : Position) :
    Rereads (place p xs) [] := by
  induction xs generalizing p with
  | nil => exact ⟨[], .nil, rfl⟩
  | cons x xs ih =>
    obtain ⟨hx, hxs⟩ := List.forall_mem_cons.1 h
    obtain ⟨ms, hitems, hshape⟩ := ih hxs (p.after x.lexeme)
    rcases hx with hx | hx
    · exact ⟨_, .spacing hx hitems, (sameShape_trivia rfl ms).trans hshape⟩
    · exact ⟨_, .newline hx hitems, (sameShape_trivia rfl ms).trans hshape⟩

theorem rereads_use {decl : UseDecl} (h : decl.Legal) (d : Nat) (p : Position) :
    Rereads (place p (usePieces unit d decl)) [.use_ decl] := by
  obtain ⟨span, huse⟩ := exists_use unit h d p
  have hitems := Items.use_ huse .nil
  rw [List.append_nil] at hitems
  exact ⟨_, hitems, rfl⟩

theorem rereads_enum {decl : EnumDecl} (h : decl.Legal) (d : Nat) (p : Position) :
    Rereads (place p (enumPieces unit d decl)) [.enum decl] := by
  obtain ⟨values, span, henum, hnames⟩ := exists_enum unit h d p
  have hitems := Items.enum henum .nil
  rw [List.append_nil] at hitems
  refine ⟨_, hitems, ?_⟩
  have herase : ∀ vs : List EnumValue, vs.map (fun v => (⟨v.name, nowhere⟩ : EnumValue)) =
      (vs.map EnumValue.name).map fun n => ⟨n, nowhere⟩ := by
    simp [Function.comp_def]
  show [Node.enum ⟨decl.name, _, nowhere⟩] = [Node.enum ⟨decl.name, _, nowhere⟩]
  rw [herase, herase, hnames]

/-- A function with a body between braces. -/
theorem rereads_fn {head : FnHead} {body : List Node} (h : head.Legal) (span : Span) (d : Nat)
    {xs : List Piece} (hbody : ∀ p, Rereads (place p xs) body) (p : Position) :
    Rereads (place p (headPieces unit d head ++ lbrace :: (xs ++ [rbrace])))
      [.fn head body span] := by
  rw [place_append, place_cons, place_append]
  obtain ⟨body', hitems, hshape⟩ := hbody _
  exact ⟨_, .fn (head_pieces h d p) rfl hitems rfl .nil, hshape.fn⟩

/-- A body that does not have exactly one declaration is between braces, and what is between them
is read as the body if its lines are. -/
theorem exists_bodyPieces {body : List Node} {same : List (List Piece)}
    (hsingle : (declarations body).length ≠ 1)
    (hlines : ∀ p, Rereads (place p ((declPieces unit (d + 1) body).flatMap
      fun x => lineBreak unit (d + 1) ++ x)) body) :
    ∃ xs, bodyPieces unit d (declarations body).length same (declPieces unit (d + 1) body) =
        lbrace :: (xs ++ [rbrace]) ∧ ∀ p, Rereads (place p xs) body := by
  rcases hcount : (declarations body).length with _ | _ | count
  · exact ⟨[], rfl, fun p => ⟨[], .nil, sameShape_nil_of_no_declarations hcount⟩⟩
  · exact absurd hcount hsingle
  · refine ⟨(declPieces unit (d + 1) body).flatMap (fun x => lineBreak unit (d + 1) ++ x) ++
      lineBreak unit d, ?_, fun p => ?_⟩
    · rw [bodyPieces_many]
      simp
    · have hall := fun q => (hlines p).append (rereads_blanks (blanks_lineBreak unit d) q)
      rw [List.append_nil] at hall
      rw [place_append]
      exact hall _

/-- One more declaration, with blanks before and after it. -/
theorem rereads_cons {n : Node} {before x after xs : List Piece} (hbefore : Blanks before)
    (hafter : Blanks after) (hx : ∀ p, Rereads (place p x) [n])
    (hxs : ∀ p, Rereads (place p xs) ns) (p : Position) :
    Rereads (place p (before ++ x ++ after ++ xs)) (n :: ns) := by
  rw [place_append, place_append, place_append]
  have hupto : ∀ q, Rereads (place p before ++ place q x) [n] := fun q =>
    (rereads_blanks hbefore p).append (hx q)
  exact ((hupto _).append (rereads_blanks hafter _)).append (hxs _)

/-- **Canonical text derives a tree of the same shape**, if no body has exactly one
declaration. -/
theorem rereads_of_legal (unit : List Char) (h : Legal ns) (hsingle : ¬ HasSingleBody ns)
    {before after : List Piece} (hbefore : Blanks before) (hafter : Blanks after) (d : Nat)
    (p : Position) :
    Rereads (place p ((declPieces unit d ns).flatMap fun x => before ++ x ++ after)) ns := by
  induction h generalizing before after d p with
  | nil => exact ⟨[], .nil, rfl⟩
  | trivia isTrivia _ ih =>
    rw [declPieces_of_trivia isTrivia]
    obtain ⟨ms, hitems, hshape⟩ := ih (fun h => hsingle (.later h)) hbefore hafter d p
    exact ⟨ms, hitems, hshape.trans (sameShape_trivia isTrivia _).symm⟩
  | use_ decl _ ih =>
    rw [declPieces_of_decl rfl, List.flatMap_cons]
    exact rereads_cons hbefore hafter (rereads_use decl d)
      (ih (fun h => hsingle (.later h)) hbefore hafter d) p
  | enum decl _ ih =>
    rw [declPieces_of_decl rfl, List.flatMap_cons]
    exact rereads_cons hbefore hafter (rereads_enum decl d)
      (ih (fun h => hsingle (.later h)) hbefore hafter d) p
  | @fn head body ns span isHead isBody _ ihBody ih =>
    rw [declPieces_of_decl rfl, List.flatMap_cons]
    refine rereads_cons hbefore hafter (fun p => ?_)
      (ih (fun h => hsingle (.later h)) hbefore hafter d) p
    have hlines := ihBody (fun h => hsingle (.inside h)) (blanks_lineBreak unit (d + 1))
      blanks_nil (d + 1)
    simp only [List.append_nil] at hlines
    obtain ⟨xs, hxs, hbody⟩ := exists_bodyPieces (fun h => hsingle (.here h)) hlines
    rw [nodePieces, hxs]
    exact rereads_fn isHead span d hbody p

/-- The same for one declaration. -/
theorem rereads_decl {n : Node} (h : Legal [n]) (hdecl : n.isTrivia = false)
    (hsingle : ¬ HasSingleBody [n]) {before after : List Piece} (hbefore : Blanks before)
    (hafter : Blanks after) (d : Nat) (p : Position) :
    Rereads (place p (before ++ nodePieces unit d n ++ after)) [n] := by
  have := rereads_of_legal unit h hsingle hbefore hafter d p
  rwa [declPieces_of_decl hdecl, declPieces, List.flatMap_singleton] at this

/-- A function that is read again has its body between braces. -/
theorem exists_fnPieces (unit : List Char) {head : FnHead} {body : List Node} {span : Span}
    (hbody : Legal body) (hsingle : ¬ HasSingleBody [.fn head body span]) (d : Nat) :
    ∃ xs, nodePieces unit d (.fn head body span) =
        headPieces unit d head ++ lbrace :: (xs ++ [rbrace]) ∧ ∀ p, Rereads (place p xs) body := by
  have hlines := rereads_of_legal unit hbody (fun h => hsingle (.inside h))
    (blanks_lineBreak unit (d + 1)) blanks_nil (d + 1)
  simp only [List.append_nil] at hlines
  obtain ⟨xs, hxs, hrereads⟩ := exists_bodyPieces (fun h => hsingle (.here h)) hlines
  exact ⟨xs, by rw [nodePieces, hxs], hrereads⟩

end Curly.Layout
