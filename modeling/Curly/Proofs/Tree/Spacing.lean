import Curly.Proofs.Tree.Image

/-!
# Trees without spacing

Spacing decides nothing. `dropSpacing` takes the spacing out of a tree at every depth, and building
a tree from tokens without spacing gives just that, or the same error
(`Source.build_dropSpacing`). This holds of any list of tokens, whether or not it comes from a
text.
-/

namespace Curly

mutual

/-- The node with the spacing taken out of its body. -/
def Node.dropSpacing : Node → Node
  | .fn head body span => .fn head (dropSpacing body) span
  | .comment text span => .comment text span
  | .newline span => .newline span
  | .spacing span => .spacing span
  | .use_ d => .use_ d
  | .enum d => .enum d

/-- The nodes without spacing, at this level and in their bodies. -/
def dropSpacing : List Node → List Node
  | [] => []
  | .spacing _ :: ns => dropSpacing ns
  | n :: ns => n.dropSpacing :: dropSpacing ns

end

/-- The program without spacing at any depth. -/
def Program.dropSpacing (p : Program) : Program :=
  { p with children := Curly.dropSpacing p.children }

/-- What dropping spacing leaves of a node. -/
def Node.unlessSpacing : Node → List Node
  | .spacing _ => []
  | n => [n.dropSpacing]

theorem dropSpacing_eq_flatMap (ns : List Node) :
    dropSpacing ns = ns.flatMap Node.unlessSpacing := by
  induction ns with
  | nil => rfl
  | cons n ns ih => cases n <;> simp [dropSpacing, Node.unlessSpacing, ih]

/-- Every position stays, and spacing is left out. -/
def TreeMap.withoutSpacing : TreeMap where
  position := id
  node := Node.unlessSpacing
  node_spacing _ := .inl rfl
  node_newline _ := rfl
  node_comment _ _ := rfl
  node_use _ := rfl
  node_enum d := by rw [EnumDecl.move_id]; rfl
  node_fn head body s := by
    show [Node.fn head (dropSpacing body) s] = _
    rw [dropSpacing_eq_flatMap]
    rfl

theorem TreeMap.tokens_withoutSpacing (ts : List Token) :
    withoutSpacing.Tokens ts (ts.filter fun t => t.kind ≠ .spacing) := by
  induction ts with
  | nil => exact .nil
  | cons t ts ih =>
    by_cases ht : t.kind = .spacing
    · rw [List.filter_cons_of_neg (by simpa using ht)]
      exact .drop ht rfl ih
    · rw [List.filter_cons_of_pos (by simpa using ht)]
      exact .keep (fun h => absurd h ht) ih

/-- **Spacing is irrelevant to the grammar.** Without it the same tokens make the same tree but for
its spacing, or fail with the same error. -/
theorem Source.build_dropSpacing (src : Source) (ts : List Token) :
    src.build (ts.filter fun t => t.kind ≠ .spacing) =
      (src.build ts).map Program.dropSpacing := by
  have hfollows : TreeMap.withoutSpacing.Follows []
      ((Builder.run .program src.stop .empty ts).map Prod.fst)
      ((Builder.run .program src.stop .empty (ts.filter fun t => t.kind ≠ .spacing)).map
        Prod.fst) :=
    TreeMap.follows_run (TreeMap.tokens_withoutSpacing ts) nofun
  rw [build_eq, build_eq]
  generalize (Builder.run .program src.stop .empty ts).map Prod.fst = x at hfollows ⊢
  generalize (Builder.run .program src.stop .empty _).map Prod.fst = y at hfollows ⊢
  cases hfollows with
  | error same => exact congrArg Except.error same
  | ok b =>
    have hdone : (TreeMap.withoutSpacing.builder [] b).done.reverse =
        Curly.dropSpacing b.done.reverse := by
      show (TreeMap.withoutSpacing.level [] b.outer.isEmpty b.done).reverse = _
      rw [TreeMap.level_nil, TreeMap.reverse_flatMap_node, dropSpacing_eq_flatMap]
      rfl
    simp only [Except.map, hdone]
    rfl

end Curly
