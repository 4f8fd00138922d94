import Curly.Proofs.Layout.Joining
import Curly.Proofs.Token.Unplaced

/-!
# Trees apart from their places

Tokens that differ in nothing but their places derive the same nodes but for their spans
(`Items.exists_of_unplaced`). Both lists of tokens have one image in which everything stands at the
beginning of the text, and so have the trees that are built from them.
-/

namespace Curly

open Grammar

variable {p stop : Position} {text : List Char} {ts us : List Token} {nodes nodes' : List Node}

namespace TreeMap

/-- The move of everything to the beginning of the text. -/
def unplacing : TreeMap := moving fun _ => .origin

theorem follows_unplacing (ts : List Token) (stop : Position) :
    unplacing.Follows []
      ((Builder.run .program stop .empty (ts ++ [Token.endOfInput stop])).map Prod.fst)
      ((Builder.run .program .origin .empty
        (ts.map Token.unplaced ++ [Token.endOfInput .origin])).map Prod.fst) := by
  have htokens := tokens_moving (fun _ => .origin) (ts ++ [Token.endOfInput stop])
  rw [List.map_append] at htokens
  exact follows_run htokens nofun

/-- Trees with the same image differ in their spans only. -/
theorem eraseSpans_eq_of_builder
    (h : unplacing.builder [] ⟨[], nodes.reverse, .item⟩ =
      unplacing.builder [] ⟨[], nodes'.reverse, .item⟩) : eraseSpans nodes = eraseSpans nodes' := by
  have hlevel : ∀ ns : List Node, unplacing.level [] true ns.reverse =
      (moveNodes (fun _ => .origin) ns).reverse := by
    intro ns
    rw [unplacing, level_moving, List.append_nil, moveNodes_eq_map, List.map_reverse]
  have hdone := (Builder.mk.inj h).2.1
  rw [List.isEmpty_nil, hlevel, hlevel, List.reverse_inj] at hdone
  rw [← eraseSpans_moveNodes (fun _ => .origin) nodes, hdone, eraseSpans_moveNodes]

end TreeMap

/-- **Tokens that differ in nothing but their places** derive the same nodes but for their spans. -/
theorem Grammar.Items.exists_of_unplaced (h : Items ts nodes) (hus : Tokenizes p text (.ok us))
    (hsame : us.map Token.unplaced = ts.map Token.unplaced) :
    ∃ nodes', Items us nodes' ∧ eraseSpans nodes' = eraseSpans nodes := by
  have hts := TreeMap.follows_unplacing ts .origin
  have hus' := TreeMap.follows_unplacing us .origin
  rw [Builder.run_program h] at hts
  rw [hsame] at hus'
  generalize (Builder.run .program .origin .empty (ts.map Token.unplaced ++ _)).map Prod.fst = out
    at hts hus'
  cases hts with
  | ok =>
    cases hrun : Builder.run .program .origin .empty (us ++ [Token.endOfInput .origin]) with
    | error r =>
      rw [hrun] at hus'
      cases hus'
    | ok r =>
      have hitems := Builder.items_of_run (fun t ht => (hus.isSpelled t ht).ne_eof)
        (hus.lined rfl) hrun
      obtain ⟨nodes', hnodes'⟩ : ∃ nodes', Items us nodes' := ⟨_, hitems⟩
      rw [Builder.run_program hnodes'] at hus'
      refine ⟨nodes', hnodes', TreeMap.eraseSpans_eq_of_builder ?_⟩
      generalize himage : TreeMap.unplacing.builder [] ⟨[], nodes.reverse, .item⟩ = image at hus'
      cases hus' with
      | ok => rfl

end Curly
