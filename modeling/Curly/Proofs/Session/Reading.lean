import Curly.Proofs.Session.Parts
import Curly.Session.Run

/-!
# Reading line by line

The invariant of a session that reads a program and rejects none of its blocks: what is open, with
the lines still to be read, has the canonical text that is still to be printed. At the end nothing
is open, as a program is complete, and the answers join up to the canonical text of the program
(`repeats_of_format`).
-/

namespace Curly.Session

variable {style : Layout.Style} {pending line block text : String} {lines : List String}

/-- The text of the lines, with a line feed after each. -/
def unlines (lines : List String) : String := String.join (lines.map (· ++ "\n"))

@[simp] theorem unlines_nil : unlines [] = "" := rfl

theorem unlines_cons (line : String) (lines : List String) :
    unlines (line :: lines) = line ++ "\n" ++ unlines lines := by
  simp [unlines]

/-! ## One line -/

/-- What the effect of a line in a session in which `pending` is open says of the two. -/
inductive Step (pending line : String) : Effect → Prop
  | quit (nothingOpen : pending = "") (isQuit : Text.trim line.toList = quitLine.toList) :
    Step pending line .quit
  | skip (isBlank : Text.allBlank (pending ++ line ++ "\n").toList) : Step pending line .skip
  | submit : Step pending line (.submit (pending ++ line ++ "\n"))
  | extend (isOpen : ¬ isComplete (pending ++ line ++ "\n")) :
    Step pending line (.extend (pending ++ line ++ "\n"))

theorem step_effect (pending line : String) : Step pending line (effect pending line) := by
  rw [effect]
  split
  next h =>
    rw [Bool.and_eq_true, String.isEmpty_iff, beq_iff_eq] at h
    exact .quit h.1 h.2
  next =>
    dsimp only
    split
    next h => exact .skip h
    next =>
      split
      next => exact .submit
      next h =>
        rw [Bool.or_eq_true, not_or] at h
        exact .extend h.2

/-- A line that is not blank and ends no session submits the block or leaves it open. -/
theorem effect_of_not_blank (hquit : Text.trim line.toList ≠ quitLine.toList)
    (hline : Text.allBlank line.toList = false) : effect pending line =
      if isComplete (pending ++ line ++ "\n") then .submit (pending ++ line ++ "\n")
      else .extend (pending ++ line ++ "\n") := by
  have hblock : Text.allBlank (pending ++ line ++ "\n").toList = false := by
    rw [Text.allBlank] at hline ⊢
    simp [hline]
  rw [effect, if_neg (by simp [hquit])]
  dsimp only
  rw [hblock, hline, if_neg Bool.false_ne_true, Bool.false_or]

theorem read_cons (h : effect pending line ≠ .quit) (lines : List String) :
    read pending (line :: lines) = ((line, effect pending line) ::
      (read (effect pending line).pending lines).1,
      (read (effect pending line).pending lines).2) := by
  rw [read, if_neg h]

theorem format_of_answer (h : answer style block = .formatted text) :
    (Source.interactive block).format style = .ok text := by
  rw [answer] at h
  cases hformat : (Source.interactive block).format style with
  | ok text' =>
    rw [hformat] at h
    rw [Answer.formatted.inj h]
  | error e =>
    rw [hformat] at h
    cases h

/-- **The line that ends a session is not in a program** when nothing is open. -/
theorem not_isProgram_of_quit {name : String} (h : Text.trim line.toList = quitLine.toList)
    (rest : String) : ¬ (Source.mk name (line ++ rest)).IsProgram := by
  have hprefix : quitLine.toList <+: Text.trimStart line.toList := by
    rw [← h]
    exact List.rdropWhile_prefix Text.isBlank _
  obtain ⟨more, hmore⟩ := hprefix
  have hchars : (Source.mk name (line ++ rest)).chars =
      line.toList.takeWhile Text.isBlank ++ ':' :: ("quit".toList ++ (more ++ rest.toList)) :=
    calc (line ++ rest).toList
      _ = line.toList.takeWhile Text.isBlank ++ Text.trimStart line.toList ++ rest.toList := by
        rw [String.toList_append, Text.trimStart, List.takeWhile_append_dropWhile]
      _ = line.toList.takeWhile Text.isBlank ++ (quitLine.toList ++ (more ++ rest.toList)) := by
        rw [← hmore, List.append_assoc, List.append_assoc]
  exact Source.not_isProgram_of_colon List.all_takeWhile hchars

/-! ## All lines -/

/-- The lines have effects that end no session, nothing is left open, and all blocks are answered
with texts that join up to `text`. -/
structure Repeats (style : Layout.Style) (outcome : List (String × Effect) × String)
    (text : String) : Prop where
  goesOn : ∀ e ∈ outcome.1, e.2 ≠ .quit
  nothingLeft : outcome.2 = ""
  joins : ∃ texts : List String,
    (blocks outcome.1).map (answer style) = texts.map .formatted ∧ String.join texts = text

namespace Repeats

variable {effects : List (String × Effect)} {left : String} {e : Effect}

theorem nil (style : Layout.Style) : Repeats style ([], "") "" := ⟨nofun, rfl, [], rfl, rfl⟩

/-- A line that leads to no answer. -/
theorem cons (h : Repeats style (effects, left) text) (hquit : e ≠ .quit)
    (hblocks : blocks ((line, e) :: effects) = blocks effects) :
    Repeats style ((line, e) :: effects, left) text := by
  refine ⟨List.forall_mem_cons.2 ⟨hquit, h.goesOn⟩, h.nothingLeft, ?_⟩
  rw [hblocks]
  exact h.joins

/-- A line that leads to an answer. -/
theorem submit {upper : String} (h : Repeats style (effects, left) text)
    (hanswer : answer style block = .formatted upper) :
    Repeats style ((line, .submit block) :: effects, left) (upper ++ text) := by
  obtain ⟨texts, htexts, rfl⟩ := h.joins
  refine ⟨List.forall_mem_cons.2 ⟨nofun, h.goesOn⟩, h.nothingLeft, upper :: texts, ?_, ?_⟩
  · have hblocks : blocks ((line, .submit block) :: effects) = block :: blocks effects := rfl
    rw [hblocks, List.map_cons, hanswer, htexts, List.map_cons]
  · simp

end Repeats

/-- **A session that reads a program line by line** answers with its canonical text, if it
rejects nothing. -/
theorem repeats_of_format
    (hpending : pending = "" ∨ pending.toList.getLast? = some '\n' ∧ ¬ isComplete pending)
    (h : (Source.interactive (pending ++ unlines lines)).format style = .ok text)
    (hanswered : ∀ block ∈ blocks (read pending lines).1, ∃ text,
      answer style block = .formatted text) : Repeats style (read pending lines) text := by
  induction lines generalizing pending text with
  | nil =>
    rw [unlines_nil, String.append_empty] at h
    rcases hpending with rfl | ⟨-, hopen⟩
    · have hempty : (Source.interactive "").format style = _ :=
        Source.format_of_items .nil (.done .origin)
      obtain rfl := Except.ok.inj (hempty.symm.trans h)
      exact .nil style
    · obtain ⟨p, hp, -⟩ := Source.exists_parse_of_format h
      exact absurd (isComplete_of_isProgram ⟨p, hp⟩) hopen
  | cons line lines ih =>
    have hlast : (pending ++ line ++ "\n").toList.getLast? = some '\n' := by simp
    have hends : ∀ c ∈ (pending ++ line ++ "\n").toList.getLast?, c = '\n' := by
      intro c hc
      exact Option.some.inj (hc.symm.trans hlast)
    rw [unlines_cons, ← String.append_assoc, ← String.append_assoc] at h
    obtain ⟨p, hp, -⟩ := Source.exists_parse_of_format h
    have hstep := step_effect pending line
    -- The line that would end the session is no beginning of a program.
    by_cases hquit : effect pending line = .quit
    · rw [hquit] at hstep
      cases hstep with
      | quit nothingOpen isQuit =>
        rw [nothingOpen, String.empty_append, String.append_assoc] at hp
        exact absurd ⟨p, hp⟩ (not_isProgram_of_quit isQuit _)
    rw [read_cons hquit] at hanswered ⊢
    generalize effect pending line = e at hstep hquit hanswered ⊢
    cases hstep with
    | quit => exact absurd rfl hquit
    | skip isBlank =>
      -- Nothing of what is dropped would be printed, so the rest still has all of the text.
      obtain ⟨lower, hlower, htext⟩ := Source.exists_format_of_cut hends h
        (Source.format_of_allBlank isBlank hends ⟨p, hp⟩)
      rw [htext, String.empty_append]
      rw [← String.empty_append (s := unlines lines)] at hlower
      exact (ih (.inl rfl) hlower hanswered).cons hquit rfl
    | submit =>
      obtain ⟨hblock, hblocks⟩ := List.forall_mem_cons.1 hanswered
      obtain ⟨upper, hanswer⟩ := hblock
      obtain ⟨lower, hlower, rfl⟩ := Source.exists_format_of_cut hends h (format_of_answer hanswer)
      rw [← String.empty_append (s := unlines lines)] at hlower
      exact (ih (.inl rfl) hlower hblocks).submit hanswer
    | extend isOpen => exact (ih (.inr ⟨hlast, isOpen⟩) h hanswered).cons hquit rfl

end Curly.Session
