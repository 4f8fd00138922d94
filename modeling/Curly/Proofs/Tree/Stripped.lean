import Curly.Proofs.Tree.Shape
import Mathlib.Data.List.Forall2

/-!
# Trees without trivia

What `stripTrivia` leaves of a list of nodes, of whatever nodes it is made. Taking the trivia out at
every depth and passing over it in canonical layout are two ways of doing without it: the one
rebuilds the tree, the other skips nodes and counts the declarations of a body. They agree, and what
is left are the declarations of every level (`stripTrivia_keeps_declarations`).
-/

namespace Curly

/-- `Pruned n m`: the node `m` is `n` with only the declarations of its body left in it, and these
are pruned as well. -/
inductive Pruned : Node → Node → Prop
  | use_ (d : UseDecl) : Pruned (.use_ d) (.use_ d)
  | enum (d : EnumDecl) : Pruned (.enum d) (.enum d)
  | fn {head : FnHead} {body body' : List Node} {span : Span}
    (declared : List.Forall₂ Pruned (declarations body) body') :
    Pruned (.fn head body span) (.fn head body' span)

mutual

theorem pruned_strip : ∀ n : Node, n.isTrivia = false → Pruned n n.strip
  | .comment .., h | .newline _, h | .spacing _, h => by cases h
  | .use_ d, _ => .use_ d
  | .enum d, _ => .enum d
  | .fn _ body _, _ => .fn (forall₂_pruned_stripTrivia body)

/-- **The declarations of every level are left**, in their order. -/
theorem forall₂_pruned_stripTrivia :
    ∀ ns : List Node, List.Forall₂ Pruned (declarations ns) (stripTrivia ns)
  | [] => .nil
  | n :: ns => by
    cases h : n.isTrivia
    · rw [declarations_of_decl h, stripTrivia_of_decl h]
      exact .cons (pruned_strip n h) (forall₂_pruned_stripTrivia ns)
    · rw [declarations_of_trivia h, stripTrivia_of_trivia h]
      exact forall₂_pruned_stripTrivia ns

end

mutual

theorem isTrivia_within_strip :
    ∀ n m : Node, m.Within n.strip.body → m.isTrivia = false
  | .comment .., _, h | .newline _, _, h | .spacing _, _, h | .use_ _, _, h | .enum _, _, h =>
    absurd h Node.not_within_nil
  | .fn _ body _, m, h => isTrivia_within_stripTrivia body m h

/-- **No trivia is left** at any depth. -/
theorem isTrivia_within_stripTrivia :
    ∀ (ns : List Node) (m : Node), m.Within (stripTrivia ns) → m.isTrivia = false
  | [], _, h => absurd h Node.not_within_nil
  | n :: ns, m, hm => by
    cases h : n.isTrivia
    · rw [stripTrivia_of_decl h] at hm
      rcases Node.within_cons.1 hm with rfl | inBody | inRest
      · rw [isTrivia_strip, h]
      · exact isTrivia_within_strip n m inBody
      · exact isTrivia_within_stripTrivia ns m inRest
    · rw [stripTrivia_of_trivia h] at hm
      exact isTrivia_within_stripTrivia ns m hm

end

mutual

theorem strip_of_no_trivia : ∀ n : Node, (∀ m : Node, m.Within n.body → m.isTrivia = false) →
    n.strip = n
  | .comment .., _ | .newline _, _ | .spacing _, _ | .use_ _, _ | .enum _, _ => rfl
  | .fn _ body _, h => by rw [Node.strip, stripTrivia_of_no_trivia body h]

/-- Where there is no trivia, none is taken out. -/
theorem stripTrivia_of_no_trivia : ∀ ns : List Node,
    (∀ m : Node, m.Within ns → m.isTrivia = false) → stripTrivia ns = ns
  | [], _ => rfl
  | n :: ns, h => by
    obtain ⟨hn, hbody, hlater⟩ := Node.forall_within_cons.1 h
    rw [stripTrivia_of_decl hn, strip_of_no_trivia n hbody, stripTrivia_of_no_trivia ns hlater]

end

/-- **Taking the trivia out leaves the declarations** of every level, in their order and with all
that is in them, and nothing else. Doing it again changes nothing, and neither does it change the
canonical text. -/
theorem stripTrivia_keeps_declarations (ns : List Node) :
    (∀ m : Node, m.Within (stripTrivia ns) → m.isTrivia = false) ∧
      stripTrivia (stripTrivia ns) = stripTrivia ns ∧
      List.Forall₂ Pruned (declarations ns) (stripTrivia ns) ∧
      ∀ style, Layout.text style (stripTrivia ns) = Layout.text style ns := by
  have hnone := isTrivia_within_stripTrivia ns
  refine ⟨hnone, stripTrivia_of_no_trivia _ hnone, forall₂_pruned_stripTrivia ns, fun style => ?_⟩
  rw [Layout.text, Layout.nodesText_stripTrivia, Layout.text]

end Curly
