import Curly.Proofs.Tree.Move
import Curly.Proofs.Tree.Outcome

/-!
# Trees read from changed tokens

A builder looks at the kinds and texts of tokens and never at their positions, and spacing makes
nodes but decides nothing. `TreeMap` is a change to trees of this sort: positions are moved, and
spacing may be left out. Given the changed tokens a builder makes the changed tree, and fails where
it fails with the error moved (`TreeMap.follows_run`), also with other nodes before all others.
-/

namespace Curly

/-- A change to trees that moves the positions in them and leaves spacing in its place or out. -/
structure TreeMap where
  position : Position → Position
  node : Node → List Node
  node_spacing : ∀ s, node (.spacing s) = [] ∨ node (.spacing s) = [.spacing (s.move position)]
  node_newline : ∀ s, node (.newline s) = [.newline (s.move position)]
  node_comment : ∀ text s, node (.comment text s) = [.comment text (s.move position)]
  node_use : ∀ d, node (.use_ d) = [.use_ (d.move position)]
  node_enum : ∀ d, node (.enum d) = [.enum (d.move position)]
  node_fn : ∀ head body s,
    node (.fn head body s) = [.fn head (body.flatMap node) (s.move position)]

namespace TreeMap

variable (m : TreeMap) (base : List Node)

/-- The nodes of one level, latest first. Those of the outermost level come after `base`. -/
def level (outermost : Bool) (ns : List Node) : List Node :=
  ns.flatMap m.node ++ if outermost then base else []

/-- The open functions with what is before them. -/
def outer : List OpenFn → List OpenFn
  | [] => []
  | o :: os => ⟨m.position o.start, o.head, m.level base os.isEmpty o.before⟩ :: outer os

/-- The slot with the positions in it moved. -/
def slot : Slot → Slot
  | .item => .item
  | .specifier start => .specifier (m.position start)
  | .includeColon start specifier => .includeColon (m.position start) specifier
  | .includeOpen start specifier => .includeOpen (m.position start) specifier
  | .includes start specifier opened entries =>
    .includes (m.position start) specifier (m.position opened) entries
  | .enumName start => .enumName (m.position start)
  | .enumOpen start name => .enumOpen (m.position start) name
  | .enumValues start name values =>
    .enumValues (m.position start) name (values.map (EnumValue.move m.position))
  | .fnName start => .fnName (m.position start)
  | .fnOpen start name => .fnOpen (m.position start) name
  | .params start name params => .params (m.position start) name params
  | .paramType start name params param => .paramType (m.position start) name params param
  | .returns start name params => .returns (m.position start) name params
  | .body start head => .body (m.position start) head

/-- The tree under construction, with `base` before everything in it. -/
def builder (b : Builder) : Builder :=
  ⟨m.outer base b.outer, m.level base b.outer.isEmpty b.done, m.slot b.slot⟩

/-- Whether spacing stays in its place. -/
def Keeps (t : Token) : Prop :=
  t.kind = .spacing → m.node (.spacing t.span) = [.spacing (t.span.move m.position)]

/-- The tokens `us` are `ts` at their new places, without spacing that is left out, and with
anything in templates, since these are refused. -/
inductive Tokens : List Token → List Token → Prop
  | nil : Tokens [] []
  | keep {t : Token} {ts us : List Token} (isKept : m.Keeps t) (later : Tokens ts us) :
    Tokens (t :: ts) (t.move m.position :: us)
  | drop {t : Token} {ts us : List Token} (isSpacing : t.kind = .spacing)
    (isDropped : m.node (.spacing t.span) = []) (later : Tokens ts us) : Tokens (t :: ts) us
  | template {t : Token} {ts us : List Token} {literal : Option String}
    (isTemplate : t.kind = .template) (later : Tokens ts us) :
    Tokens (t :: ts) ({ t.move m.position with literal := literal } :: us)

/-- The second outcome is the first one changed: the tree, or the error. -/
inductive Follows : Builder.Reading → Builder.Reading → Prop
  | ok (b : Builder) : Follows (.ok b) (.ok (m.builder base b))
  | error {r r' : Refusal} (same : r'.error = r.error.move m.position) :
    Follows (.error r) (.error r')

/-! ## Nodes -/

variable {m base} {n n' : Node} {b : Builder} {t : Token} {ts us xs ys : List Token}
  {outermost : Bool} {ns : List Node}

/-- Every node is changed into at most one. -/
theorem reverse_node (n : Node) : (m.node n).reverse = m.node n := by
  cases n with
  | comment text s => rw [m.node_comment, List.reverse_singleton]
  | newline s => rw [m.node_newline, List.reverse_singleton]
  | spacing s => rcases m.node_spacing s with h | h <;> simp [h]
  | use_ d => rw [m.node_use, List.reverse_singleton]
  | enum d => rw [m.node_enum, List.reverse_singleton]
  | fn head body s => rw [m.node_fn, List.reverse_singleton]

theorem reverse_flatMap_node (ns : List Node) :
    (ns.flatMap m.node).reverse = ns.reverse.flatMap m.node := by
  rw [List.reverse_flatMap]
  exact congrArg (ns.reverse.flatMap ·) (funext reverse_node)

theorem level_nil (ns : List Node) : m.level [] outermost ns = ns.flatMap m.node := by
  rw [level, ite_self, List.append_nil]

theorem level_cons (h : m.node n = [n']) :
    m.level base outermost (n :: ns) = n' :: m.level base outermost ns := by
  rw [level, List.flatMap_cons, h, List.append_assoc, List.singleton_append, ← level]

theorem builder_push (h : m.node n = [n']) :
    m.builder base (b.push n) = (m.builder base b).push n' := by
  rw [builder, Builder.push, level_cons h]
  rfl

theorem builder_push_nil (h : m.node n = []) (hb : b.slot = .item) :
    m.builder base (b.push n) = m.builder base b := by
  rw [builder, builder, hb, Builder.push, level, List.flatMap_cons, h, List.nil_append, ← level]

theorem builder_openFn (start : Position) (head : FnHead) :
    m.builder base (b.openFn start head) =
      (m.builder base b).openFn (m.position start) head := rfl

theorem isIdle_builder (b : Builder) : (m.builder base b).isIdle = b.isIdle := by
  obtain ⟨outer, done, slot⟩ := b
  cases outer <;> cases slot <;> rfl

/-! ## One token -/

theorem follows_push (h : m.node n = [n']) :
    m.Follows base (.ok (b.push n)) (.ok ((m.builder base b).push n')) :=
  builder_push h ▸ .ok _

theorem follows_refuse (error : GrammarError) {t t' : Token} {b b' : Builder} :
    m.Follows base (b.refuse error t xs) (b'.refuse (error.move m.position) t' ys) :=
  .error rfl

theorem follows_refuseFor (what : String) {b b' : Builder} :
    m.Follows base (b.refuseFor what t xs) (b'.refuseFor what (t.move m.position) ys) :=
  .error rfl

theorem follows_refuseUnexpected {b b' : Builder} :
    m.Follows base (b.refuseUnexpected t xs)
      (b'.refuseUnexpected (t.move m.position) ys) :=
  .error (GrammarError.move_unexpected _ _).symm

/-- The function whose body is closed stands where it did. -/
theorem builder_close (o : OpenFn) (os : List OpenFn) (done : List Node) (stop : Position) :
    m.builder base ⟨os, .fn o.head done.reverse ⟨o.start, stop⟩ :: o.before, .item⟩ =
      ⟨m.outer base os, .fn o.head (m.level base false done).reverse
        ⟨m.position o.start, m.position stop⟩ :: m.level base os.isEmpty o.before, .item⟩ := by
  have hbody : (m.level base false done).reverse = done.reverse.flatMap m.node := by
    rw [level, if_neg Bool.false_ne_true, List.append_nil, reverse_flatMap_node]
  rw [builder, level_cons (m.node_fn _ _ _), hbody]
  rfl

theorem follows_readItem (hkeep : m.Keeps t) :
    m.Follows base (b.readItem t xs) ((m.builder base b).readItem (t.move m.position) ys) := by
  obtain ⟨outer, done, slot⟩ := b
  unfold Builder.readItem
  rw [Token.move_kind]
  cases hkind : t.kind
  case newline => exact follows_push (m.node_newline _)
  case spacing => exact follows_push (hkeep hkind)
  case comment => exact follows_push (m.node_comment _ _)
  case rbrace =>
    cases outer with
    | nil => exact follows_refuseUnexpected
    | cons o os =>
      have h : m.Follows base _ _ :=
        .ok ⟨os, .fn o.head done.reverse ⟨o.start, t.span.stop⟩ :: o.before, .item⟩
      rw [builder_close] at h
      exact h
  case eof =>
    cases outer with
    | nil => exact follows_refuseUnexpected
    | cons o os => exact follows_refuseFor _
  case keyword k =>
    cases k
    case use_ => exact .ok _
    case enum => exact .ok _
    case fn => exact .ok _
    case let_ => exact follows_refuse _
    all_goals exact follows_refuseUnexpected
  all_goals exact follows_refuseUnexpected

section Slots

variable {start opened : Position} {specifier name param : String} {entries : Includes}
  {params : List Param} {values : List EnumValue} {head : FnHead}

theorem follows_readSpecifier (h : Builder.SameAhead xs ys) :
    m.Follows base (b.readSpecifier start t xs)
      ((m.builder base b).readSpecifier (m.position start) (t.move m.position) ys) := by
  have hcolon := h .colon (.inr rfl)
  have hstring := h .string (.inl rfl)
  simp only [Builder.readSpecifier, Token.move_kind, ← hcolon, ← hstring]
  split
  · split
    · exact .ok _
    · exact follows_push (m.node_use _)
  · split
    · exact .ok _
    · exact follows_refuseFor _

theorem follows_readIncludeColon (h : Builder.SameAhead xs ys) :
    m.Follows base (b.readIncludeColon start specifier t xs)
      ((m.builder base b).readIncludeColon (m.position start) specifier (t.move m.position)
        ys) := by
  have hcolon := h .colon (.inr rfl)
  simp only [Builder.readIncludeColon, Token.move_kind, ← hcolon]
  split
  · exact .ok _
  · split
    · exact .ok _
    · exact follows_refuseUnexpected

theorem follows_readIncludeOpen :
    m.Follows base (b.readIncludeOpen start specifier t xs)
      ((m.builder base b).readIncludeOpen (m.position start) specifier (t.move m.position)
        ys) := by
  simp only [Builder.readIncludeOpen, Token.move_kind]
  cases t.kind
  case spacing => exact .ok _
  case lbrace => exact .ok _
  all_goals exact follows_refuseFor _

theorem follows_closeIncludes {stop : Position} :
    m.Follows base (b.closeIncludes start specifier opened entries stop xs)
      ((m.builder base b).closeIncludes (m.position start) specifier (m.position opened) entries
        (m.position stop) ys) := by
  cases entries with
  | everything => exact follows_push (m.node_use _)
  | names ns =>
    cases ns with
    | nil => exact .error rfl
    | cons n ns => exact follows_push (m.node_use _)

theorem follows_readIncludes :
    m.Follows base (b.readIncludes start specifier opened entries t xs)
      ((m.builder base b).readIncludes (m.position start) specifier (m.position opened) entries
        (t.move m.position) ys) := by
  have hadd : Builder.addInclude? entries (t.move m.position) =
      Builder.addInclude? entries t := rfl
  simp only [Builder.readIncludes, Token.move_kind, Token.move_isOperator, hadd]
  split
  · exact .ok _
  · split
    · exact follows_closeIncludes
    · split
      · split
        · exact .ok _
        · exact follows_refuse _
      · by_cases heof : t.kind = .eof
        · simp only [heof, ↓reduceIte]
          exact follows_refuseFor _
        · simp only [heof, ↓reduceIte]
          exact follows_refuseUnexpected

theorem follows_readEnumName :
    m.Follows base (b.readEnumName start t xs)
      ((m.builder base b).readEnumName (m.position start) (t.move m.position) ys) := by
  simp only [Builder.readEnumName, Token.move_kind]
  cases t.kind
  case spacing => exact .ok _
  case identifier => exact .ok _
  all_goals exact follows_refuseFor _

theorem follows_readEnumOpen :
    m.Follows base (b.readEnumOpen start name t xs)
      ((m.builder base b).readEnumOpen (m.position start) name (t.move m.position) ys) := by
  simp only [Builder.readEnumOpen, Token.move_kind]
  cases t.kind
  case spacing => exact .ok _
  case lbrace => exact .ok _
  all_goals exact follows_refuseFor _

theorem follows_readEnumValues :
    m.Follows base (b.readEnumValues start name values t xs)
      ((m.builder base b).readEnumValues (m.position start) name
        (values.map (EnumValue.move m.position)) (t.move m.position) ys) := by
  simp only [Builder.readEnumValues, Token.move_kind]
  cases t.kind
  case spacing => exact .ok _
  case newline => exact .ok _
  case comment => exact .ok _
  case identifier => exact .ok _
  case rbrace =>
    refine follows_push ?_
    rw [m.node_enum, EnumDecl.move, List.map_reverse]
    rfl
  case eof => exact follows_refuseFor _
  all_goals exact follows_refuseUnexpected

theorem follows_readFnName :
    m.Follows base (b.readFnName start t xs)
      ((m.builder base b).readFnName (m.position start) (t.move m.position) ys) := by
  simp only [Builder.readFnName, Token.move_kind]
  cases t.kind
  case spacing => exact .ok _
  case identifier => exact .ok _
  all_goals exact follows_refuseFor _

theorem follows_readFnOpen :
    m.Follows base (b.readFnOpen start name t xs)
      ((m.builder base b).readFnOpen (m.position start) name (t.move m.position) ys) := by
  simp only [Builder.readFnOpen, Token.move_kind]
  cases t.kind
  case spacing => exact .ok _
  case lparen => exact .ok _
  all_goals exact follows_refuseFor _

theorem follows_readParams :
    m.Follows base (b.readParams start name params t xs)
      ((m.builder base b).readParams (m.position start) name params (t.move m.position) ys) := by
  simp only [Builder.readParams, Token.move_kind]
  cases t.kind
  case spacing => exact .ok _
  case newline => exact .ok _
  case comment => exact .ok _
  case identifier => exact .ok _
  case rparen => exact .ok _
  all_goals exact follows_refuseFor _

theorem follows_readParamType :
    m.Follows base (b.readParamType start name params param t xs)
      ((m.builder base b).readParamType (m.position start) name params param
        (t.move m.position) ys) := by
  simp only [Builder.readParamType, Token.move_kind]
  cases t.kind
  case spacing => exact .ok _
  case identifier => exact .ok _
  case builtin => exact .ok _
  all_goals exact follows_refuseFor _

theorem follows_readBody :
    m.Follows base (b.readBody start head t xs)
      ((m.builder base b).readBody (m.position start) head (t.move m.position) ys) := by
  simp only [Builder.readBody, Token.move_kind]
  cases t.kind
  case spacing => exact .ok _
  case lbrace => exact builder_openFn start head ▸ .ok _
  case arrow => exact follows_refuse _
  all_goals exact follows_refuseFor _

theorem follows_readReturns :
    m.Follows base (b.readReturns start name params t xs)
      ((m.builder base b).readReturns (m.position start) name params (t.move m.position)
        ys) := by
  simp only [Builder.readReturns, Token.move_kind]
  cases t.kind
  case identifier => exact .ok _
  case builtin => exact .ok _
  all_goals exact follows_readBody

end Slots

/-- **A builder follows the change token by token**, whatever it waits for. -/
theorem follows_read (hkeep : m.Keeps t) (h : b.looksAhead → Builder.SameAhead xs ys) :
    m.Follows base (b.read t xs) ((m.builder base b).read (t.move m.position) ys) := by
  have hslot' : (m.builder base b).slot = m.slot b.slot := rfl
  cases hslot : b.slot <;> rw [hslot] at hslot' <;> simp only [Builder.read, hslot', hslot, slot]
  case item => exact follows_readItem hkeep
  case specifier => exact follows_readSpecifier (h (by rw [Builder.looksAhead, hslot]))
  case includeColon => exact follows_readIncludeColon (h (by rw [Builder.looksAhead, hslot]))
  case includeOpen => exact follows_readIncludeOpen
  case includes => exact follows_readIncludes
  case enumName => exact follows_readEnumName
  case enumOpen => exact follows_readEnumOpen
  case enumValues => exact follows_readEnumValues
  case fnName => exact follows_readFnName
  case fnOpen => exact follows_readFnOpen
  case params => exact follows_readParams
  case paramType => exact follows_readParamType
  case returns => exact follows_readReturns
  case body => exact follows_readBody

/-! ## All tokens -/

theorem kindAhead?_tokens (h : m.Tokens ts us) :
    Builder.kindAhead? us = Builder.kindAhead? ts := by
  induction h with
  | nil => rfl
  | @keep t ts us _ _ ih =>
    cases hpass : t.kind.isPassable
    · rw [Builder.kindAhead?_of_not_passable hpass, Builder.kindAhead?_of_not_passable
        (show (t.move m.position).kind.isPassable = false from hpass), Token.move_kind]
    · rw [Builder.kindAhead?_of_passable hpass, Builder.kindAhead?_of_passable
        (show (t.move m.position).kind.isPassable from hpass), ih]
  | drop isSpacing _ _ ih => rw [ih, Builder.kindAhead?_of_passable (by rw [isSpacing]; rfl)]
  | @template t _ _ _ isTemplate _ _ =>
    have hpass : t.kind.isPassable = false := by rw [isTemplate]; rfl
    rw [Builder.kindAhead?_of_not_passable hpass]
    exact Builder.kindAhead?_of_not_passable hpass

theorem sameAhead_tokens (h : m.Tokens ts us) : Builder.SameAhead ts us :=
  fun kind _ => by rw [kindAhead?_tokens h]

/-- Spacing that is left out changes nothing. -/
theorem exists_read_drop (ht : t.kind = .spacing) (hdrop : m.node (.spacing t.span) = [])
    (hcolon : b.ColonAhead (t :: ts)) :
    ∃ b', b.read t ts = .ok b' ∧ m.builder base b' = m.builder base b := by
  rcases Builder.read_spacing ht hcolon with hread | ⟨hslot, hread⟩
  · exact ⟨b, hread, rfl⟩
  · exact ⟨_, hread, builder_push_nil hdrop hslot⟩

/-- A template is refused with anything in it. -/
theorem follows_read_template {literal : Option String} (ht : t.kind = .template)
    (h : b.looksAhead → Builder.SameAhead xs ys) :
    m.Follows base (b.read t xs)
      ((m.builder base b).read { t.move m.position with literal := literal } ys) := by
  obtain ⟨cause, hread⟩ := (m.builder base b).exists_read_template (t := t.move m.position) ht
  have hfollows : m.Follows base (b.read t xs)
      ((m.builder base b).read (t.move m.position) ys) :=
    follows_read (fun hspacing => by rw [ht] at hspacing; cases hspacing) h
  have hmove : (m.builder base b).read (t.move m.position) ys = _ := hread t.literal ys
  rw [hmove] at hfollows
  rw [hread]
  generalize b.read t xs = x at hfollows ⊢
  cases hfollows with
  | error same => exact .error same

theorem reached_builder (b : Builder) (t : Token) :
    Builder.reached .program (m.builder base b) (t.move m.position) =
      Builder.reached .program b t := by
  rw [Builder.reached, isIdle_builder, Token.move_kind, Builder.reached]

/-- A run follows the change over a token if it does so afterwards. -/
theorem follows_run_cons {stop stop' : Position} {u : Token}
    (hread : m.Follows base (b.read t ts) ((m.builder base b).read u us))
    (hreached : Builder.reached .program (m.builder base b) u = Builder.reached .program b t)
    (later : ∀ b', b.read t ts = .ok b' →
      m.Follows base ((Builder.run .program stop b' ts).map Prod.fst)
        ((Builder.run .program stop' (m.builder base b') us).map Prod.fst)) :
    m.Follows base ((Builder.run .program stop b (t :: ts)).map Prod.fst)
      ((Builder.run .program stop' (m.builder base b) (u :: us)).map Prod.fst) := by
  rw [Builder.run, Builder.run, hreached]
  split
  · exact .ok b
  · generalize b.read t ts = x at hread later ⊢
    generalize (m.builder base b).read u us = y at hread ⊢
    cases hread with
    | ok b' => exact later b' rfl
    | error same => exact .error same

/-- **A run over changed tokens** makes the changed tree or fails with the moved error. -/
theorem follows_run {stop : Position} (h : m.Tokens ts us) (hcolon : b.ColonAhead ts) :
    m.Follows base ((Builder.run .program stop b ts).map Prod.fst)
      ((Builder.run .program (m.position stop) (m.builder base b) us).map Prod.fst) := by
  induction h generalizing b with
  | nil =>
    have hread : m.Follows base (b.read (.endOfInput stop) []) ((m.builder base b).read
        ((Token.endOfInput stop).move m.position) []) := follows_read nofun fun _ _ _ => Iff.rfl
    rw [Builder.run, Builder.run, ← Token.move_endOfInput, reached_builder]
    split
    · exact .ok b
    · generalize b.read (.endOfInput stop) [] = x at hread ⊢
      generalize (m.builder base b).read ((Token.endOfInput stop).move m.position) [] = y
        at hread ⊢
      cases hread with
      | ok b' => exact .ok b'
      | error same => exact .error same
  | @keep t ts us isKept later ih =>
    exact follows_run_cons (follows_read isKept fun _ => sameAhead_tokens later)
      (reached_builder b t) fun b' hread => ih (Builder.colonAhead_of_read hread)
  | @drop t ts us isSpacing isDropped later ih =>
    obtain ⟨b', hread, himage⟩ : ∃ b', b.read t ts = .ok b' ∧
        m.builder base b' = m.builder base b := exists_read_drop isSpacing isDropped hcolon
    have hrun : Builder.run .program stop b (t :: ts) = Builder.run .program stop b' ts :=
      Builder.run_of_read (Builder.reached_program (by rw [isSpacing]; decide)) hread
    rw [hrun, ← himage]
    exact ih (Builder.colonAhead_of_read hread)
  | @template t ts us literal isTemplate later ih =>
    exact follows_run_cons (follows_read_template isTemplate fun _ => sameAhead_tokens later)
      (reached_builder b t) fun b' hread => ih (Builder.colonAhead_of_read hread)

/-! ## Moving -/

/-- Every position is moved, and all nodes stay. -/
def moving (f : Position → Position) : TreeMap where
  position := f
  node n := [n.move f]
  node_spacing _ := .inr rfl
  node_newline _ := rfl
  node_comment _ _ := rfl
  node_use _ := rfl
  node_enum _ := rfl
  node_fn head body s := by
    rw [Node.move, moveNodes_eq_map, List.map_eq_flatMap]

theorem level_moving (f : Position → Position) (ns : List Node) :
    (moving f).level base true ns = ns.map (Node.move f) ++ base := by
  rw [List.map_eq_flatMap]
  rfl

theorem tokens_moving (f : Position → Position) (ts : List Token) :
    (moving f).Tokens ts (ts.map (Token.move f)) := by
  induction ts with
  | nil => exact .nil
  | cons t ts ih => exact .keep (fun _ => rfl) ih

end TreeMap

/-- What is built from tokens is the tree or the error that a run over them comes to. -/
theorem Source.build_eq (src : Source) (ts : List Token) :
    src.build ts = match (Builder.run .program src.stop .empty ts).map Prod.fst with
      | .ok b => .ok ⟨src.name, b.done.reverse⟩
      | .error refusal => .error refusal.error := by
  unfold build Builder.program
  cases Builder.run .program src.stop .empty ts <;> rfl

end Curly
