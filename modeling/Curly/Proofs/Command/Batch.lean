import Curly.Proofs.Command.Session
import Curly.Proofs.Machine.Streams

/-!
# Sessions on programs

A session that reads a program from its input and reports nothing prints, after its banner, the
canonical text of the program (`echoes_of_format`). What it reads are the lines that the editor
finds in the input; without any backspace these are the lines of the input.
-/

namespace Curly.Session

variable {σ : Type} {host : Host (StateM σ)} {streams : σ → Streams}
  {linesOf : String → List String} {style : Layout.Style} {lines : List String} {s : σ}
  {input text text' name : String}

/-- A session that starts in this state and is given these lines goes on to its end and leaves
nothing open, its answers join up to the text, and the text is all that it prints after its banner.
All that it reports are entries of the journal. -/
structure Echoes (host : Host (StateM σ)) (streams : σ → Streams) (style : Layout.Style)
    (lines : List String) (s : σ) (text : String) : Prop extends
    Repeats style (read "" lines) text where
  shows : ∀ (settings : Settings) level, settings.style = style →
    ∃ after, ∃ entries : List Journal.Entry,
      Leads streams (Command.repl host settings level).run s (.ok ()) after ∧
        after.output = (streams s).output ++ (banner ++ text) ∧
        after.reports = (streams s).reports ++ String.join (entries.map fun e => e.line ++ "\n")

/-- A simulated machine with this input echoes the text. -/
def MachineEchoes (style : Layout.Style) (input text : String) : Prop :=
  Echoes Machine.host Machine.streams style (Machine.linesOf input)
    (Machine.start (.ofFiles []) [] input) text

theorem Repeats.printed_eq (h : Repeats style (read "" lines) text) :
    printed (events style (read "" lines).1) = text := by
  obtain ⟨texts, htexts, rfl⟩ := h.joins
  have hanswers : (blocks (read "" lines).1).map (fun block => (answer style block).text) =
      texts := by
    have hmap := congrArg (List.map Answer.text) htexts
    rw [List.map_map, List.map_map] at hmap
    exact hmap.trans (List.map_id texts)
  rw [printed_events, hanswers]

/-- Where every block is answered with a text, nothing is reported. -/
theorem Repeats.quiet (h : Repeats style (read "" lines) text) : Quiet style lines := by
  obtain ⟨texts, htexts, -⟩ := h.joins
  refine quiet_iff.2 fun block hblock => ?_
  have hanswer := List.mem_map_of_mem (f := answer style) hblock
  rw [htexts] at hanswer
  obtain ⟨text, -, htext⟩ := List.mem_map.1 hanswer
  exact ⟨text, htext.symm⟩

theorem Repeats.echoes (h : Repeats style (read "" lines) text)
    (hhost : host.Piped streams linesOf) (hlines : linesOf (streams s).input = lines) :
    Echoes host streams style lines s text := by
  refine ⟨h, fun settings level hstyle => ?_⟩
  obtain ⟨rest, shown, hsaid, hrepl⟩ := Command.leads_repl hhost level settings hlines
  rw [hstyle] at hsaid
  have hprinted : printed shown = banner ++ text := by
    rw [← printed_said, hsaid, printed_cons, printed_said, h.printed_eq]
    rfl
  have hquiet : ∀ message, .report message ∉ shown := by
    intro message hmem
    have hmem' : .report message ∈ said shown := List.mem_filter.2 ⟨hmem, rfl⟩
    rw [hsaid] at hmem'
    rcases List.mem_cons.1 hmem' with hbanner | hlater
    · cases hbanner
    · exact h.quiet message (List.mem_filter.1 hlater).1
  obtain ⟨entries, hentries⟩ := exists_entries_of_quiet level hquiet
  exact ⟨_, entries, hrepl, congrArg ((streams s).output ++ ·) hprinted,
    congrArg ((streams s).reports ++ ·) hentries⟩

/-- A session echoes one text only. -/
theorem Echoes.unique (h : Echoes host streams style lines s text)
    (h' : Echoes host streams style lines s text') : text = text' :=
  h.printed_eq.symm.trans h'.printed_eq

/-! ## The text that is read -/

/-- The text that a session reads: the lines that the editor finds in the input, with a line feed
after each. -/
def delivered (linesOf : String → List String) (input : String) : String := unlines (linesOf input)

theorem unlines_map_ofList (lines : List (List Char)) :
    unlines (lines.map String.ofList) = String.ofList (lines.flatMap (· ++ ['\n'])) := by
  induction lines with
  | nil => rfl
  | cons line lines ih =>
    rw [List.map_cons, unlines_cons, ih, List.flatMap_cons, String.ofList_append,
      String.ofList_append]

/-- **Without backspaces a session reads its input**, with a line feed after every line. -/
theorem delivered_of_no_backspace (hhost : host.Piped streams linesOf)
    (h : Text.backspace ∉ input.toList) :
    delivered linesOf input = String.ofList (Text.relined input.toList) := by
  rw [delivered, hhost.plain input h, unlines_map_ofList, Text.relined]

/-- **A session formats what it reads.** Where it reports nothing and what it reads is a program, it
takes no line for the end and leaves nothing open, and all that it prints after its banner is the
canonical text of the program, block by block. Without backspaces in the input this is the canonical
text of the input. -/
theorem echoes_of_format (hhost : host.Piped streams linesOf) (hinput : (streams s).input = input)
    (hquiet : Quiet style (linesOf input)) :
    (∀ text, (Source.mk name (delivered linesOf input)).format style = .ok text →
      Echoes host streams style (linesOf input) s text) ∧
    (Text.backspace ∉ input.toList → ∀ text, (Source.mk name input).format style = .ok text →
      Echoes host streams style (linesOf input) s text) := by
  have hread : ∀ text, (Source.interactive (delivered linesOf input)).format style = .ok text →
      Echoes host streams style (linesOf input) s text := by
    intro text h
    rw [← String.empty_append (s := delivered linesOf input)] at h
    exact (repeats_of_format (.inl rfl) h (quiet_iff.1 hquiet)).echoes hhost
      (congrArg linesOf hinput)
  refine ⟨fun text h => hread text (Source.format_rename h _), fun hbackspace text h => ?_⟩
  refine hread text ?_
  rw [delivered_of_no_backspace hhost hbackspace]
  exact Source.format_relined h

/-- A block of two lines, the first of which ends in a carriage return and the second in nothing. -/
theorem echoes_of_format_fn :
    let input := "fn f() \x7b\r\n\x7d"
    Machine.host.Piped Machine.streams Machine.linesOf ∧
      Quiet .standard (Machine.linesOf input) ∧
      MachineEchoes .standard input "fn f() \x7b\x7d\n\n" := by
  intro input
  have hblocks : blocks (read "" (Machine.linesOf input)).1 = ["fn f() \x7b\n\x7d\n"] := by
    decide +kernel
  have hanswer : answer .standard "fn f() \x7b\n\x7d\n" = .formatted "fn f() \x7b\x7d\n\n" := by
    decide +kernel
  have hquiet : Quiet .standard (Machine.linesOf input) := by
    rw [quiet_iff, hblocks]
    exact List.forall_mem_singleton.2 ⟨_, hanswer⟩
  have hformat : (Source.interactive input).format .standard = .ok "fn f() \x7b\x7d\n\n" := by
    decide +kernel
  have hinput : (Machine.start (.ofFiles []) [] input).streams.input = input := rfl
  exact ⟨Machine.host_piped, hquiet,
    (echoes_of_format Machine.host_piped hinput hquiet).2 (by decide) _ hformat⟩

/-- **Backspaces are not formatted but applied.** A text with a backspace in a string is a program,
and so is what is left of it after the backspace; the session prints the canonical text of the
latter. -/
theorem not_echoes_backspace :
    let input := "use 'a\x08'\n"
    Quiet .standard (Machine.linesOf input) ∧
      (Source.interactive input).format .standard = .ok "use 'a\x08'\n\n" ∧
      MachineEchoes .standard input "use ''\n\n" ∧
      ¬ MachineEchoes .standard input "use 'a\x08'\n\n" := by
  intro input
  have hread : read "" (Machine.linesOf input) = ([("use ''", .submit "use ''\n")], "") := by
    decide +kernel
  have hanswer : answer .standard "use ''\n" = .formatted "use ''\n\n" := by decide +kernel
  have hrepeats : Repeats .standard (read "" (Machine.linesOf input)) "use ''\n\n" := by
    rw [hread]
    exact (Repeats.nil _).submit hanswer
  have hechoes : MachineEchoes .standard input "use ''\n\n" :=
    hrepeats.echoes Machine.host_piped rfl
  refine ⟨hrepeats.quiet, by decide +kernel, hechoes, fun h => ?_⟩
  exact absurd (hechoes.unique h) (by decide)

end Curly.Session
