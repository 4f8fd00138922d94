import Curly.Tree.Layout

/-!
# The shape of a tree

A tree without its trivia and up to spans. `SameShape` trees have the same declarations, which is
all that canonical layout writes (`nodesText_eq_of_sameShape`). `HasSingleBody` tells the trees in
which a body has exactly one declaration. `Node.Within` goes to any depth: it tells the nodes of a
tree, those in the bodies of its functions with them.
-/

namespace Curly

/-- The span that stands in for any span. -/
def nowhere : Span := Span.point Position.origin

mutual

/-- The node with no spans in it. -/
def Node.eraseSpans : Node → Node
  | .comment text _ => .comment text nowhere
  | .newline _ => .newline nowhere
  | .spacing _ => .spacing nowhere
  | .use_ d => .use_ ⟨d.specifier, d.includes, nowhere⟩
  | .enum d => .enum ⟨d.name, d.values.map fun v => ⟨v.name, nowhere⟩, nowhere⟩
  | .fn head body _ => .fn head (eraseSpans body) nowhere

/-- The nodes with no spans in them. -/
def eraseSpans : List Node → List Node
  | [] => []
  | n :: ns => n.eraseSpans :: eraseSpans ns

end

/-- The same declarations at every depth, but for their spans. -/
def SameShape (ns ms : List Node) : Prop :=
  eraseSpans (stripTrivia ns) = eraseSpans (stripTrivia ms)

/-- There is a function, at some depth, with exactly one declaration in its body. -/
inductive HasSingleBody : List Node → Prop
  | here {head : FnHead} {body ns : List Node} {span : Span}
    (single : (declarations body).length = 1) : HasSingleBody (.fn head body span :: ns)
  | inside {head : FnHead} {body ns : List Node} {span : Span} (inBody : HasSingleBody body) :
    HasSingleBody (.fn head body span :: ns)
  | later {n : Node} {ns : List Node} (inRest : HasSingleBody ns) : HasSingleBody (n :: ns)

/-- The nodes inside a function's braces. -/
def Node.body : Node → List Node
  | .fn _ body _ => body
  | .comment .. | .newline _ | .spacing _ | .use_ _ | .enum _ => []

/-- The node is one of `nodes` or stands in a body among them, at any depth. -/
inductive Node.Within (n : Node) : List Node → Prop
  | here {ns : List Node} : n.Within (n :: ns)
  | later {m : Node} {ns : List Node} (inRest : n.Within ns) : n.Within (m :: ns)
  | inside {head : FnHead} {body ns : List Node} {span : Span} (inBody : n.Within body) :
    n.Within (.fn head body span :: ns)

variable {n : Node} {ns ms ns' ms' : List Node}

/-! ## Every depth -/

theorem Node.not_within_nil : ¬ n.Within [] := nofun

theorem Node.within_cons {m : Node} :
    n.Within (m :: ns) ↔ n = m ∨ n.Within m.body ∨ n.Within ns := by
  constructor
  · intro h
    cases h with
    | here => exact .inl rfl
    | later inRest => exact .inr (.inr inRest)
    | inside inBody => exact .inr (.inl inBody)
  · rintro (rfl | inBody | inRest)
    · exact .here
    · cases m with
      | fn => exact .inside inBody
      | comment | newline | spacing | use_ | enum => exact absurd inBody not_within_nil
    · exact .later inRest

/-- **What holds of all nodes of a tree** holds of the first, of those in its body, and of those
after it. -/
theorem Node.forall_within_cons {P : Node → Prop} :
    (∀ m : Node, m.Within (n :: ns) → P m) ↔
      P n ∧ (∀ m : Node, m.Within n.body → P m) ∧ ∀ m : Node, m.Within ns → P m := by
  simp only [within_cons, or_imp, forall_and, forall_eq]

/-! ## Trivia -/

theorem declarations_of_trivia (h : n.isTrivia) (ns : List Node) :
    declarations (n :: ns) = declarations ns := by
  simp [declarations, h]

theorem declarations_of_decl (h : n.isTrivia = false) (ns : List Node) :
    declarations (n :: ns) = n :: declarations ns := by
  simp [declarations, h]

theorem stripTrivia_of_trivia (h : n.isTrivia) (ns : List Node) :
    stripTrivia (n :: ns) = stripTrivia ns := by
  rw [stripTrivia, if_pos h]

theorem stripTrivia_of_decl (h : n.isTrivia = false) (ns : List Node) :
    stripTrivia (n :: ns) = n.strip :: stripTrivia ns := by
  rw [stripTrivia, if_neg (by rw [h]; exact Bool.false_ne_true)]

theorem stripTrivia_append (ns ms : List Node) :
    stripTrivia (ns ++ ms) = stripTrivia ns ++ stripTrivia ms := by
  induction ns with
  | nil => rfl
  | cons n ns ih =>
    cases h : n.isTrivia
    · rw [List.cons_append, stripTrivia_of_decl h, stripTrivia_of_decl h, ih, List.cons_append]
    · rw [List.cons_append, stripTrivia_of_trivia h, stripTrivia_of_trivia h, ih]

theorem isTrivia_strip (n : Node) : n.strip.isTrivia = n.isTrivia := by cases n <;> rfl

theorem isTrivia_eraseSpans (n : Node) : n.eraseSpans.isTrivia = n.isTrivia := by cases n <;> rfl

theorem eraseSpans_append (ns ms : List Node) :
    eraseSpans (ns ++ ms) = eraseSpans ns ++ eraseSpans ms := by
  induction ns with
  | nil => rfl
  | cons n ns ih => rw [List.cons_append, eraseSpans, ih, eraseSpans, List.cons_append]

theorem length_stripTrivia (ns : List Node) :
    (stripTrivia ns).length = (declarations ns).length := by
  induction ns with
  | nil => rfl
  | cons n ns ih =>
    cases h : n.isTrivia
    · rw [stripTrivia_of_decl h, declarations_of_decl h, List.length_cons, ih, List.length_cons]
    · rw [stripTrivia_of_trivia h, declarations_of_trivia h, ih]

/-- Nothing but declarations is left. -/
theorem declarations_stripTrivia (ns : List Node) :
    declarations (stripTrivia ns) = stripTrivia ns := by
  induction ns with
  | nil => rfl
  | cons n ns ih =>
    cases h : n.isTrivia
    · have hstrip : n.strip.isTrivia = false := (isTrivia_strip n).trans h
      rw [stripTrivia_of_decl h, declarations_of_decl hstrip, ih]
    · rw [stripTrivia_of_trivia h, ih]

theorem length_declarations_eraseSpans (ns : List Node) :
    (declarations (eraseSpans ns)).length = (declarations ns).length := by
  induction ns with
  | nil => rfl
  | cons n ns ih =>
    have herase := isTrivia_eraseSpans n
    cases h : n.isTrivia
    · rw [eraseSpans, declarations_of_decl (herase.trans h), declarations_of_decl h,
        List.length_cons, ih, List.length_cons]
    · rw [eraseSpans, declarations_of_trivia (herase.trans h), declarations_of_trivia h, ih]

/-! ## The same shape -/

theorem SameShape.append (h : SameShape ns ms) (h' : SameShape ns' ms') :
    SameShape (ns ++ ns') (ms ++ ms') := by
  unfold SameShape at *
  rw [stripTrivia_append, eraseSpans_append, stripTrivia_append, eraseSpans_append, h, h']

theorem sameShape_trivia (h : n.isTrivia) (ns : List Node) : SameShape (n :: ns) ns := by
  rw [SameShape, stripTrivia_of_trivia h]

/-- Functions with the same head and bodies of the same shape. -/
theorem SameShape.fn {head : FnHead} {span span' : Span} (h : SameShape ns ms) :
    SameShape [.fn head ns span] [.fn head ms span'] := by
  show [Node.fn head (eraseSpans (stripTrivia ns)) nowhere] =
    [Node.fn head (eraseSpans (stripTrivia ms)) nowhere]
  rw [h]

theorem sameShape_nil_of_no_declarations (h : (declarations ns).length = 0) : SameShape [] ns := by
  rw [← length_stripTrivia, List.length_eq_zero_iff] at h
  rw [SameShape, h]
  rfl

theorem not_hasSingleBody_of_no_declarations (h : (declarations ns).length = 0) :
    ¬ HasSingleBody ns := by
  intro hsingle
  induction hsingle with
  | here | inside => simp [declarations, Node.isTrivia] at h
  | @later n ns _ ih =>
    refine ih ?_
    cases hn : n.isTrivia
    · rw [declarations_of_decl hn] at h
      cases h
    · rwa [declarations_of_trivia hn] at h

/-! ## Layout -/

namespace Layout

theorem nodesText_of_trivia {unit : List Char} (h : n.isTrivia) (ns : List Node) :
    nodesText unit (n :: ns) = nodesText unit ns := by
  rw [nodesText, if_pos h]

theorem nodesText_of_decl {unit : List Char} (h : n.isTrivia = false) (ns : List Node) :
    nodesText unit (n :: ns) = nodeText unit n ++ "\n\n".toList ++ nodesText unit ns := by
  rw [nodesText, if_neg (by rw [h]; exact Bool.false_ne_true)]

mutual

theorem nodeText_strip (unit : List Char) : ∀ n : Node, nodeText unit n.strip = nodeText unit n
  | .comment .. | .newline _ | .spacing _ | .use_ _ | .enum _ => rfl
  | .fn head body _ => by
    rw [Node.strip, nodeText, nodeText, nodesText_stripTrivia unit body,
      declarations_stripTrivia, length_stripTrivia]

theorem nodesText_stripTrivia (unit : List Char) :
    ∀ ns : List Node, nodesText unit (stripTrivia ns) = nodesText unit ns
  | [] => rfl
  | n :: ns => by
    cases h : n.isTrivia
    · have hstrip : n.strip.isTrivia = false := (isTrivia_strip n).trans h
      rw [stripTrivia_of_decl h, nodesText_of_decl hstrip, nodesText_of_decl h,
        nodeText_strip unit n, nodesText_stripTrivia unit ns]
    · rw [stripTrivia_of_trivia h, nodesText_of_trivia h, nodesText_stripTrivia unit ns]

end

mutual

theorem nodeText_eraseSpans (unit : List Char) :
    ∀ n : Node, nodeText unit n.eraseSpans = nodeText unit n
  | .comment .. | .newline _ | .spacing _ | .use_ _ => rfl
  | .enum d => by
    have hvalues : (d.values.map fun v => (⟨v.name, nowhere⟩ : EnumValue)).map (·.name.toList) =
        d.values.map (·.name.toList) := by
      rw [List.map_map, Function.comp_def]
    rw [Node.eraseSpans, nodeText, nodeText]
    unfold enumText
    rw [hvalues]
  | .fn head body _ => by
    rw [Node.eraseSpans, nodeText, nodeText, nodesText_eraseSpans unit body,
      length_declarations_eraseSpans]

theorem nodesText_eraseSpans (unit : List Char) :
    ∀ ns : List Node, nodesText unit (eraseSpans ns) = nodesText unit ns
  | [] => rfl
  | n :: ns => by
    have herase := isTrivia_eraseSpans n
    cases h : n.isTrivia
    · rw [eraseSpans, nodesText_of_decl (herase.trans h), nodesText_of_decl h,
        nodeText_eraseSpans unit n, nodesText_eraseSpans unit ns]
    · rw [eraseSpans, nodesText_of_trivia (herase.trans h), nodesText_of_trivia h,
        nodesText_eraseSpans unit ns]

end

/-- **Trees of the same shape have the same canonical text.** -/
theorem nodesText_eq_of_sameShape {unit : List Char} (h : SameShape ns ms) :
    nodesText unit ns = nodesText unit ms := by
  rw [← nodesText_stripTrivia, ← nodesText_eraseSpans, h, nodesText_eraseSpans,
    nodesText_stripTrivia]

end Layout

end Curly
