import Curly.Proofs.Session.Reading

/-!
# No line is lost

What a session reads falls into parts: the blocks that it answers and the blank lines between
them, in their order, and behind them the lines that are still open at the end
(`exists_partition`). A session that is told to end reads no further, and a line that would end it
is text like any other while a block is open. What a line does to the lines that are open is the
step lemma (`lineStep_effect`), the parts are put together line by line from it
(`exists_partition_of_isOpen`).
-/

namespace Curly.Session

variable {held : List String} {line : String}

/-! ## Lines that belong together -/

/-- A line that ends a session in which nothing is open. -/
def IsQuit (line : String) : Prop := Text.trim line.toList = quitLine.toList

/-- A line with nothing but blanks. -/
def IsBlankLine (line : String) : Prop := Text.allBlank line.toList

/-- The lines of a block that is open: none is blank, and none completes the block. -/
structure IsOpen (lines : List String) : Prop where
  starts : ∀ first ∈ lines.head?, ¬ IsQuit first
  not_blank : ∀ line ∈ lines, ¬ IsBlankLine line
  incomplete : ∀ front, front <+: lines → front ≠ [] → ¬ isComplete (unlines front)

/-- The lines of a block that is answered: it starts with a line that has something in it and
does not end a session, no line but the last is blank, nothing shorter is complete, and either the
block is complete or its last line is blank. -/
structure IsBlock (lines : List String) : Prop where
  starts : ∃ first, lines.head? = some first ∧ ¬ IsBlankLine first ∧ ¬ IsQuit first
  not_blank : ∀ line ∈ lines.dropLast, ¬ IsBlankLine line
  incomplete : ∀ front, front <+: lines → front ≠ [] → front ≠ lines →
    ¬ isComplete (unlines front)
  ends : isComplete (unlines lines) ∨ ∃ last, lines.getLast? = some last ∧ IsBlankLine last

/-- A part of what a session reads. -/
inductive Part
  /-- A blank line while nothing is open. -/
  | blank (line : String)
  /-- A block that is answered. -/
  | block (lines : List String)
  deriving DecidableEq

namespace Part

/-- The lines of a part. -/
def lines : Part → List String
  | .blank line => [line]
  | .block lines => lines

/-- The text that is answered, if any. -/
def block? : Part → Option String
  | .blank _ => none
  | .block lines => some (unlines lines)

/-- The line that is skipped, if any. -/
def blank? : Part → Option String
  | .blank line => some line
  | .block _ => none

/-- A part is what it is called. -/
def IsProper : Part → Prop
  | .blank line => IsBlankLine line
  | .block lines => IsBlock lines

end Part

/-- The blank lines that are skipped. -/
def skipped (effects : List (String × Effect)) : List String :=
  effects.filterMap fun
    | (line, .skip) => some line
    | _ => none

theorem unlines_append (lines lines' : List String) :
    unlines (lines ++ lines') = unlines lines ++ unlines lines' := by
  simp [unlines]

theorem unlines_concat (lines : List String) (line : String) :
    unlines (lines ++ [line]) = unlines lines ++ line ++ "\n" := by
  rw [unlines_append, unlines_cons, unlines_nil, String.append_empty, String.append_assoc]

theorem unlines_eq_empty {lines : List String} : unlines lines = "" ↔ lines = [] := by
  cases lines with
  | nil => simp
  | cons line lines =>
    refine iff_of_false (fun h => ?_) nofun
    have hlength := congrArg String.toList h
    simp [unlines_cons] at hlength

/-- Lines are blank together just where each of them is. -/
theorem allBlank_unlines {lines : List String} :
    Text.allBlank (unlines lines).toList ↔ ∀ line ∈ lines, IsBlankLine line := by
  induction lines with
  | nil => exact iff_of_true rfl nofun
  | cons line lines ih =>
    have hfeed : Text.isBlank '\n' = true := rfl
    rw [List.forall_mem_cons, ← ih, unlines_cons, IsBlankLine]
    simp [Text.allBlank, hfeed]

namespace IsOpen

theorem nil : IsOpen [] := ⟨nofun, nofun, fun _ h hne => absurd (List.prefix_nil.1 h) hne⟩

/-- The block stays open through a line that neither is blank nor completes it. -/
theorem concat (h : IsOpen held) (hstarts : held = [] → ¬ IsQuit line)
    (hblank : ¬ IsBlankLine line) (hopen : ¬ isComplete (unlines (held ++ [line]))) :
    IsOpen (held ++ [line]) where
  starts := by
    cases held with
    | nil => simpa using hstarts rfl
    | cons first held => simpa using h.starts
  not_blank := List.forall_mem_append.2 ⟨h.not_blank, List.forall_mem_singleton.2 hblank⟩
  incomplete := by
    intro front hfront hne
    rcases List.prefix_concat_iff.1 hfront with rfl | hfront
    · exact hopen
    · exact h.incomplete front hfront hne

/-- The block is closed by a line that is blank or completes it, unless the line is blank and the
first. -/
theorem close (h : IsOpen held) (hstarts : held = [] → ¬ IsQuit line)
    (hblank : held = [] → ¬ IsBlankLine line)
    (hends : isComplete (unlines (held ++ [line])) ∨ IsBlankLine line) :
    IsBlock (held ++ [line]) where
  starts := by
    cases held with
    | nil => exact ⟨line, rfl, hblank rfl, hstarts rfl⟩
    | cons first held =>
      exact ⟨first, rfl, h.not_blank first List.mem_cons_self, h.starts first rfl⟩
  not_blank := by
    rw [List.dropLast_concat]
    exact h.not_blank
  incomplete := by
    intro front hfront hne hproper
    exact h.incomplete front ((List.prefix_concat_iff.1 hfront).resolve_left hproper) hne
  ends := hends.imp_right fun hline => ⟨line, List.getLast?_concat, hline⟩

end IsOpen

/-! ## One line -/

/-- What the effect of a line says of it and of the lines that are open. -/
inductive LineStep (held : List String) (line : String) : Effect → Prop
  | quit (nothingOpen : held = []) (isQuit : IsQuit line) : LineStep held line .quit
  | skip (nothingOpen : held = []) (isBlank : IsBlankLine line) : LineStep held line .skip
  | submit (isBlock : IsBlock (held ++ [line])) :
    LineStep held line (.submit (unlines (held ++ [line])))
  | extend (isOpen : IsOpen (held ++ [line])) :
    LineStep held line (.extend (unlines (held ++ [line])))

/-- **The step of a session**: a line ends it, is skipped, closes the block that is open or joins
it. -/
theorem lineStep_effect (h : IsOpen held) (line : String) :
    LineStep held line (effect (unlines held) line) := by
  have hquit : ((unlines held).isEmpty && Text.trim line.toList == quitLine.toList) ↔
      held = [] ∧ IsQuit line := by
    rw [Bool.and_eq_true, String.isEmpty_iff, beq_iff_eq, unlines_eq_empty, IsQuit]
  have hblank : Text.allBlank (unlines (held ++ [line])).toList ↔
      held = [] ∧ IsBlankLine line := by
    rw [allBlank_unlines]
    constructor
    · intro hall
      refine ⟨List.eq_nil_iff_forall_not_mem.2 fun l hl => ?_, hall line (by simp)⟩
      exact h.not_blank l hl (hall l (List.mem_append_left _ hl))
    · rintro ⟨rfl, hline⟩
      exact List.forall_mem_singleton.2 hline
  rw [effect]
  dsimp only
  rw [← unlines_concat]
  split
  next hq =>
    obtain ⟨hnil, hline⟩ := hquit.1 hq
    exact .quit hnil hline
  next hq =>
    have hstarts : held = [] → ¬ IsQuit line := fun hnil hline => hq (hquit.2 ⟨hnil, hline⟩)
    split
    next hb =>
      obtain ⟨hnil, hline⟩ := hblank.1 hb
      exact .skip hnil hline
    next hb =>
      split
      next hs =>
        rw [Bool.or_eq_true] at hs
        exact .submit (h.close hstarts (fun hnil hline => hb (hblank.2 ⟨hnil, hline⟩)) hs.symm)
      next hs =>
        rw [Bool.or_eq_true, not_or] at hs
        exact .extend (h.concat hstarts hs.1 hs.2)

/-! ## All lines -/

/-- The parts of lines that a session reads, the lines that it leaves open, and the rest from the
line on that ends it. `outcome` has the effects of the lines and the block that is left open. -/
structure Partition (lines : List String) (outcome : List (String × Effect) × String)
    (parts : List Part) (left rest : List String) : Prop where
  lines_eq : lines = parts.flatMap Part.lines ++ left ++ rest
  proper : ∀ part ∈ parts, part.IsProper
  isOpen : IsOpen left
  rest_cases : rest = [] ∨ left = [] ∧ ∃ first, rest.head? = some first ∧ IsQuit first
  blocks_eq : blocks outcome.1 = parts.filterMap Part.block?
  skipped_eq : skipped outcome.1 = parts.filterMap Part.blank?
  left_eq : outcome.2 = unlines left

namespace Partition

variable {lines left rest : List String} {effects : List (String × Effect)} {pending : String}
  {parts : List Part}

/-- A line that is skipped is a part. -/
theorem skip (h : Partition lines (effects, pending) parts left rest)
    (isBlank : IsBlankLine line) :
    Partition (line :: lines) ((line, .skip) :: effects, pending) (.blank line :: parts) left
      rest where
  lines_eq := by simp [h.lines_eq, Part.lines]
  proper := List.forall_mem_cons.2 ⟨isBlank, h.proper⟩
  isOpen := h.isOpen
  rest_cases := h.rest_cases
  blocks_eq := h.blocks_eq
  skipped_eq := congrArg (line :: ·) h.skipped_eq
  left_eq := h.left_eq

/-- A line that closes a block makes it a part. -/
theorem submit (h : Partition lines (effects, pending) parts left rest)
    (isBlock : IsBlock (held ++ [line])) :
    Partition (held ++ line :: lines)
      ((line, .submit (unlines (held ++ [line]))) :: effects, pending)
      (.block (held ++ [line]) :: parts) left rest where
  lines_eq := by simp [h.lines_eq, Part.lines]
  proper := List.forall_mem_cons.2 ⟨isBlock, h.proper⟩
  isOpen := h.isOpen
  rest_cases := h.rest_cases
  blocks_eq := congrArg (unlines (held ++ [line]) :: ·) h.blocks_eq
  skipped_eq := h.skipped_eq
  left_eq := h.left_eq

/-- A line that joins the lines that are open makes no part. -/
theorem extend {block : String}
    (h : Partition (held ++ [line] ++ lines) (effects, pending) parts left rest) :
    Partition (held ++ line :: lines) ((line, .extend block) :: effects, pending) parts left
      rest where
  __ := h
  lines_eq := by rw [← h.lines_eq, List.append_assoc, List.singleton_append]

end Partition

namespace IsBlock

variable {more : List String}

/-- Of the lines of a block those before any line are open. -/
theorem isOpen (h : IsBlock (held ++ line :: more)) : IsOpen held where
  starts := by
    obtain ⟨first, hfirst, -, hquit⟩ := h.starts
    intro first' hfirst'
    rw [List.head?_append, Option.mem_def.1 hfirst'] at hfirst
    rwa [Option.some.inj hfirst]
  not_blank := by
    intro l hl
    refine h.not_blank l ?_
    rw [List.dropLast_append_of_ne_nil (List.cons_ne_nil _ _)]
    exact List.mem_append_left _ hl
  incomplete := by
    intro front hfront hne
    refine h.incomplete front (hfront.trans (List.prefix_append _ _)) hne ?_
    rintro rfl
    have hlength := hfront.length_le
    rw [List.length_append, List.length_cons] at hlength
    omega

/-- The lines of a block that come after `held` close it. -/
theorem exists_read_of_held (h : IsBlock (held ++ more)) (hne : more ≠ []) (rest : List String) :
    ∃ effects, read (unlines held) (more ++ rest) =
        (effects ++ (read "" rest).1, (read "" rest).2) ∧
      blocks effects = [unlines (held ++ more)] ∧ ∀ e ∈ effects, e.2 ≠ .quit := by
  induction more generalizing held with
  | nil => exact absurd rfl hne
  | cons line more ih =>
    have hstep := lineStep_effect h.isOpen line
    have hstarts : held = [] → ¬ IsBlankLine line ∧ ¬ IsQuit line := by
      rintro rfl
      obtain ⟨first, hfirst, hline⟩ := h.starts
      rwa [Option.some.inj hfirst]
    by_cases hquit : effect (unlines held) line = .quit
    · rw [hquit] at hstep
      cases hstep with
      | quit nothingOpen isQuit => exact absurd isQuit (hstarts nothingOpen).2
    rw [List.cons_append, read_cons hquit]
    generalize effect (unlines held) line = e at hstep hquit ⊢
    cases hstep with
    | quit => exact absurd rfl hquit
    | skip nothingOpen isBlank => exact absurd isBlank (hstarts nothingOpen).1
    | submit isBlock =>
      rcases more with _ | ⟨next, more⟩
      · exact ⟨[(line, _)], rfl, rfl, List.forall_mem_singleton.2 hquit⟩
      · -- The block does not end before its last line.
        rw [List.append_cons] at h
        have hopen := h.isOpen
        rcases isBlock.ends with hcomplete | ⟨last, hlast, hblank⟩
        · exact absurd hcomplete (hopen.incomplete _ List.prefix_rfl (by simp))
        · exact absurd hblank (hopen.not_blank last (List.mem_of_getLast? hlast))
    | extend isOpen =>
      rcases more with _ | ⟨next, more⟩
      · rcases h.ends with hcomplete | ⟨last, hlast, hblank⟩
        · exact absurd hcomplete (isOpen.incomplete _ List.prefix_rfl (by simp))
        · exact absurd hblank (isOpen.not_blank last (List.mem_of_getLast? hlast))
      · have hsplit : held ++ line :: next :: more = held ++ [line] ++ next :: more :=
          List.append_cons _ _ _
        rw [hsplit] at h ⊢
        obtain ⟨effects, hread, hblocks, hgoesOn⟩ := ih h (List.cons_ne_nil _ _)
        refine ⟨(line, .extend _) :: effects, ?_, hblocks,
          List.forall_mem_cons.2 ⟨hquit, hgoesOn⟩⟩
        rw [Effect.pending, hread, List.cons_append]

/-- **A block is read as one**, whatever comes after it. -/
theorem exists_read (h : IsBlock more) (rest : List String) :
    ∃ effects, read "" (more ++ rest) = (effects ++ (read "" rest).1, (read "" rest).2) ∧
      blocks effects = [unlines more] ∧ ∀ e ∈ effects, e.2 ≠ .quit := by
  have hne : more ≠ [] := by
    rintro rfl
    obtain ⟨first, hfirst, -⟩ := h.starts
    cases hfirst
  have hheld : IsBlock ([] ++ more) := h
  exact exists_read_of_held hheld hne rest

end IsBlock

end Curly.Session
