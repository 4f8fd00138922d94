import Curly.Proofs.Layout.RoundTrip
import Curly.Proofs.Token.Joined
import Curly.Proofs.Tree.Image

/-!
# Formatting part by part

Where a text that can be formatted is followed by a line end and another text, nothing of the one
is read with the other: an import does not go on, a comment ends and so does a carriage return in
it. The canonical texts of the parts stand one after the other, and the nodes and errors of the
second part are those it has by itself, moved down (`Source.format_join`).
-/

namespace Curly

open Grammar

/-! ## Trees one after the other -/

section Trees

variable (f : Position → Position)

mutual

theorem eraseSpans_move : ∀ n : Node, (n.move f).eraseSpans = n.eraseSpans
  | .comment .. | .newline _ | .spacing _ | .use_ _ => rfl
  | .enum d => by
    simp only [Node.move, EnumDecl.move, Node.eraseSpans, List.map_map]
    rfl
  | .fn head body span => by
    rw [Node.move, Node.eraseSpans, Node.eraseSpans, eraseSpans_moveNodes body]

theorem eraseSpans_moveNodes : ∀ ns : List Node, eraseSpans (moveNodes f ns) = eraseSpans ns
  | [] => rfl
  | n :: ns => by
    rw [moveNodes, eraseSpans, eraseSpans, eraseSpans_move n, eraseSpans_moveNodes ns]

end

end Trees

namespace Layout

theorem nodesText_append (unit : List Char) (ns ms : List Node) :
    nodesText unit (ns ++ ms) = nodesText unit ns ++ nodesText unit ms := by
  induction ns with
  | nil => rfl
  | cons n ns ih =>
    cases h : n.isTrivia
    · simp only [List.cons_append, nodesText_of_decl h, ih, List.append_assoc]
    · rw [List.cons_append, nodesText_of_trivia h, nodesText_of_trivia h, ih]

theorem nodesText_moveNodes (unit : List Char) (f : Position → Position) (ns : List Node) :
    nodesText unit (moveNodes f ns) = nodesText unit ns := by
  rw [← nodesText_eraseSpans, eraseSpans_moveNodes, nodesText_eraseSpans]

end Layout

/-! ## Texts one below the other -/

namespace Source

variable {upper lower : Source} {ts : List Token}

/-- The line end between two texts stands before the nodes of the lower one. -/
theorem run_join {stop : Position} {nodes : List Node} {u : Token} {us : List Token}
    (h : Items ts nodes) (hu : u.kind = .newline) :
    Builder.run .program stop .empty (ts ++ u :: us) =
      Builder.run .program stop ⟨[], .newline u.span :: nodes.reverse, .item⟩ us := by
  have hahead : Builder.kindAhead? (u :: us) ≠ some .colon := by
    rw [Builder.kindAhead?_of_not_passable (by rw [hu]; rfl), hu]
    decide
  rw [Builder.empty, Builder.run_items h hahead, List.append_nil]
  refine Builder.run_of_read (Builder.reached_program (by rw [hu]; decide)) ?_
  simp only [Builder.read, Builder.readItem, hu]
  rfl

/-- The nodes of two texts with a line end between them. -/
theorem build_join (name : String) {nodes : List Node} {us : List Token} (h : Items ts nodes)
    (h' : Tokenizes .origin lower.chars (.ok us)) :
    (join name upper lower).build (ts ++ Piece.newline.token upper.stop ::
        (us ++ [Token.endOfInput lower.stop]).map (Token.move upper.below)) =
      ((lower.build (us ++ [Token.endOfInput lower.stop])).map fun q =>
        (⟨name, nodes ++ .newline ⟨upper.stop, upper.below .origin⟩ ::
          moveNodes upper.below q.children⟩ : Program)).mapError
        (GrammarError.move upper.below) := by
  have hspan : (Piece.newline.token upper.stop).span = ⟨upper.stop, upper.below .origin⟩ :=
    congrArg (Span.mk upper.stop) (stop_next upper)
  obtain ⟨base, hbase⟩ : ∃ base, base =
      .newline ⟨upper.stop, upper.below .origin⟩ :: nodes.reverse := ⟨_, rfl⟩
  have hfollows : (TreeMap.moving upper.below).Follows base
      ((Builder.run .program lower.stop .empty (us ++ [Token.endOfInput lower.stop])).map Prod.fst)
      ((Builder.run .program (upper.below lower.stop) ⟨[], base, .item⟩
        ((us ++ [Token.endOfInput lower.stop]).map (Token.move upper.below))).map Prod.fst) :=
    TreeMap.follows_run (TreeMap.tokens_moving _ _) nofun
  rw [build_eq, build_eq, stop_join, run_join h rfl, hspan, ← hbase]
  generalize (Builder.run .program (upper.below lower.stop) _ _).map Prod.fst = out at hfollows ⊢
  cases hrun : Builder.run .program lower.stop .empty (us ++ [Token.endOfInput lower.stop]) with
  | error r =>
    rw [hrun] at hfollows
    cases hfollows with
    | error same => exact congrArg Except.error same
  | ok r =>
    obtain ⟨nodes', hitems⟩ : ∃ nodes', Items us nodes' := ⟨_, Builder.items_of_run
      (fun t ht => (h'.isSpelled t ht).ne_eof) (h'.lined rfl) hrun⟩
    rw [Builder.run_program hitems] at hfollows hrun
    obtain rfl := Except.ok.inj hrun
    cases hfollows with
    | ok =>
      show Except.ok (Program.mk name
        ((TreeMap.moving upper.below).level base true nodes'.reverse).reverse) = _
      rw [TreeMap.level_moving, hbase]
      simp [Except.map, Except.mapError, moveNodes_eq_map]

/-- **The outcome of reading two texts with a line end between them**: the nodes of the upper one,
the line end, and the nodes of the lower one further down, or its error. -/
theorem parse_join (name : String) (lower : Source) {p : Program} (h : upper.parse = .ok p) :
    (join name upper lower).parse =
      (lower.parse.map fun q => (⟨name, p.children ++ .newline ⟨upper.stop, upper.below .origin⟩ ::
        moveNodes upper.below q.children⟩ : Program)).mapError (SourceError.move upper.below) := by
  obtain ⟨ts, hcut, -, -, hitems⟩ := exists_items_of_parse h
  obtain ⟨out, hlower⟩ := lower.exists_tokenizes
  have htokens := tokens?_of_tokenizes hlower
  have hjoin := tokens?_join name hcut hlower
  cases out with
  | error e =>
    rw [parse, hjoin, parse, htokens]
    rfl
  | ok us =>
    rw [parse_of_tokens? hjoin, parse_of_tokens? htokens, build_join name hitems hlower]
    cases lower.build (us ++ [Token.endOfInput lower.stop]) <;> rfl

/-- **Formatting distributes over a line end.** Where the upper text can be formatted, the
canonical texts come one after the other and so do the nodes, those of the lower text further down;
where the lower text has an error, that is the error of both, further down. -/
theorem format_join (style : Layout.Style) (upper lower : Source) (name text : String)
    (h : upper.format style = .ok text) :
    (∀ text', lower.format style = .ok text' →
      (join name upper lower).format style = .ok (text ++ text') ∧
      ∃ p q, upper.parse = .ok p ∧ lower.parse = .ok q ∧
        (join name upper lower).parse = .ok ⟨name, p.children ++
          .newline ⟨upper.stop, upper.below .origin⟩ :: moveNodes upper.below q.children⟩) ∧
    ∀ e, lower.format style = .error e →
      (join name upper lower).format style = .error (e.move upper.below) := by
  obtain ⟨p, hupper, rfl⟩ := exists_parse_of_format h
  have hjoin := parse_join name lower hupper
  refine ⟨fun text' h' => ?_, fun e h' => ?_⟩
  · obtain ⟨q, hlower, rfl⟩ := exists_parse_of_format h'
    rw [hlower] at hjoin
    refine ⟨?_, p, q, hupper, hlower, hjoin⟩
    rw [format_of_parse style hjoin, Layout.nodesText_append, Layout.nodesText_of_trivia rfl,
      Layout.nodesText_moveNodes, String.ofList_append]
  · rw [parse_eq_error_of_format h'] at hjoin
    rw [format, hjoin]
    rfl

/-- An import and a comment that ends in a carriage return, before a function and before what
would go on with the import. -/
theorem format_join_import :
    (join "c" ⟨"a", "use 'a' #\r"⟩ ⟨"b", "fn f() \x7b\x7d"⟩).format .standard =
      .ok ("use 'a'\n\n" ++ "fn f() \x7b\x7d\n\n") ∧
    (join "c" ⟨"a", "use 'a' #\r"⟩ ⟨"b", ": \x7bb\x7d"⟩).format .standard =
      .error (.grammatical ⟨.unexpectedToken .colon, ⟨2, 1, 11⟩⟩) :=
  ⟨((format_join .standard ⟨"a", "use 'a' #\r"⟩ ⟨"b", "fn f() \x7b\x7d"⟩ "c" "use 'a'\n\n"
      (by decide +kernel)).1 "fn f() \x7b\x7d\n\n" (by decide +kernel)).1,
    (format_join .standard ⟨"a", "use 'a' #\r"⟩ ⟨"b", ": \x7bb\x7d"⟩ "c" "use 'a'\n\n"
      (by decide +kernel)).2 (.grammatical ⟨.unexpectedToken .colon, ⟨1, 1, 0⟩⟩)
      (by decide +kernel)⟩

end Source

end Curly
