import Curly.Proofs.Host.Streams
import Curly.Proofs.Machine.Directory
import Curly.Proofs.Token.Unplaced

/-!
# Streams of a simulated machine

The editor of a simulated machine cuts the lines of the text off its input one by one
(`Text.lines_of_cutLine`) and applies the backspaces in them, so on such a machine sessions are
piped (`Machine.host_piped`).
-/

namespace Curly

namespace Text

variable {cs line rest : List Char} {c : Char}

/-- The first line of a text is cut off, which leaves the other lines. -/
theorem lines_of_cutLine (h : cutLine cs = some (line, rest)) : lines cs = line :: lines rest := by
  have hsplit : cs.takeWhile (· ≠ '\n') ++ cs.dropWhile (· ≠ '\n') = cs :=
    List.takeWhile_append_dropWhile
  have hline : '\n' ∉ cs.takeWhile (· ≠ '\n') := fun hmem => by
    simpa using List.mem_takeWhile_imp hmem
  rw [cutLine] at h
  split at h
  next => cases h
  next hne =>
    dsimp only at h
    split at h
    next hrest =>
      obtain ⟨rfl, rfl⟩ := Prod.mk.inj (Option.some.inj h)
      rw [hrest, List.append_nil] at hsplit
      rw [hsplit] at hline ⊢
      exact lines_of_not_mem hline fun hnil => hne (List.isEmpty_iff.2 hnil)
    next c later hrest =>
      obtain ⟨rfl, rfl⟩ := Prod.mk.inj (Option.some.inj h)
      have hhead := List.head?_dropWhile_not (fun c => decide (c ≠ '\n')) cs
      rw [hrest] at hhead hsplit
      obtain rfl : c = '\n' := by simpa using hhead
      conv_lhs => rw [← hsplit]
      exact lines_cons hline later

theorem cutLine_eq_none (h : cutLine cs = none) : cs = [] := by
  rw [cutLine] at h
  split at h
  next hnil => exact List.isEmpty_iff.1 hnil
  next =>
    dsimp only at h
    split at h <;> cases h

theorem mem_of_mem_lines (hline : line ∈ lines cs) (hc : c ∈ line) : c ∈ cs := by
  rw [lines, linesBy, List.mem_append] at hline
  rcases hline with hline | hline
  · obtain ⟨piece, hpiece, rfl⟩ := List.mem_map.1 hline
    have hc' : c ∈ piece := by
      rw [dropEnd] at hc
      split at hc
      · exact List.dropLast_subset _ hc
      · exact hc
    exact mem_of_mem_pieces (List.dropLast_subset _ hpiece) hc'
  · have hlast := (List.mem_filter.1 hline).1
    rw [Option.mem_toList] at hlast
    exact mem_of_mem_pieces (List.mem_of_getLast? hlast) hc

theorem applyBackspaces_of_not_mem (h : backspace ∉ cs) : applyBackspaces cs = cs := by
  have hnone : cs.contains backspace = false := by
    rw [List.contains_eq_mem, decide_eq_false_iff_not]
    exact h
  rw [applyBackspaces, hnone, if_neg Bool.false_ne_true]

end Text

namespace Machine

/-- The streams of a simulated machine. -/
def streams (machine : Machine) : Streams := ⟨machine.input, machine.output, machine.reports⟩

/-- The lines that the editor finds in an input: those of the text after the backspaces in them. -/
def linesOf (input : String) : List String :=
  (Text.lines input.toList).map fun line => String.ofList (Text.applyBackspaces line)

/-- The editor finds no line in nothing only. -/
theorem askPlainly_of_nil {input : String} (h : linesOf input = []) :
    input = "" ∧ Session.askPlainly input = (.ended, "") := by
  rw [Session.askPlainly]
  cases hcut : Text.cutLine input.toList with
  | none => exact ⟨String.toList_eq_nil_iff.1 (Text.cutLine_eq_none hcut), rfl⟩
  | some cut =>
    rw [linesOf, Text.lines_of_cutLine hcut] at h
    cases h

/-- The editor takes the first line off an input and leaves the others. -/
theorem askPlainly_of_cons {input line : String} {lines : List String}
    (h : linesOf input = line :: lines) :
    ∃ rest, linesOf rest = lines ∧ Session.askPlainly input = (.line line, rest) := by
  rw [Session.askPlainly]
  cases hcut : Text.cutLine input.toList with
  | none =>
    obtain rfl : input = "" := String.toList_eq_nil_iff.1 (Text.cutLine_eq_none hcut)
    cases h
  | some cut =>
    obtain ⟨first, rest⟩ := cut
    rw [linesOf, Text.lines_of_cutLine hcut, List.map_cons] at h
    obtain ⟨rfl, rfl⟩ := List.cons.inj h
    exact ⟨String.ofList rest, by rw [linesOf, String.toList_ofList], rfl⟩

/-- Without backspaces the editor finds the lines of the text. -/
theorem linesOf_of_not_mem {input : String} (h : Text.backspace ∉ input.toList) :
    linesOf input = (Text.lines input.toList).map String.ofList :=
  List.map_congr_left fun _ hline => congrArg String.ofList
    (Text.applyBackspaces_of_not_mem fun hc => h (Text.mem_of_mem_lines hline hc))

theorem leads_ask {asked : Session.Asked} {rest : String} {machine : Machine} (prompt : String)
    (h : Session.askPlainly machine.input = (asked, rest)) :
    Leads streams (host.editor.ask prompt) machine ⟨asked, [Session.noTerminal]⟩
      (machine.streams.leaving rest) := by
  have hrun : ((host.editor.ask prompt).run machine).run =
      (⟨(Session.askPlainly machine.input).1, [Session.noTerminal]⟩,
        { machine with input := (Session.askPlainly machine.input).2 }) := rfl
  rw [h] at hrun
  exact ⟨congrArg Prod.fst hrun, congrArg (fun r => r.2.streams) hrun⟩

/-- The streams have no part in what is written to a file. -/
theorem streams_write (path text : String) (machine : Machine) :
    streams ((host.write path text).run machine).run.2 = streams machine := by
  rw [run_write]
  cases machine.directory.write path text.toUTF8 <;> rfl

theorem streams_save (path : String) (machine : Machine) :
    streams ((host.editor.save path).run machine).run.2 = streams machine := by
  have hrun : ((host.editor.save path).run machine).run =
      ((if machine.history.needsSaving then do
        return ⟨(← host.write path machine.history.text).mapError FileError.message, []⟩
      else return ⟨.ok (), []⟩ : StateM Machine (Session.Noted (Except String Unit))).run
        machine).run := rfl
  rw [hrun]
  split
  · exact streams_write path machine.history.text machine
  · rfl

/-- **Sessions on a simulated machine are piped.** -/
theorem host_piped : host.Piped streams linesOf where
  print _ _ := ⟨rfl, rfl⟩
  report _ _ := ⟨rfl, rfl⟩
  contains _ _ := ⟨_, rfl, rfl⟩
  start _ _ := ⟨_, rfl, rfl⟩
  load _ _ := ⟨_, rfl, rfl⟩
  remember _ _ := ⟨_, rfl, rfl⟩
  save path machine := ⟨_, rfl, streams_save path machine⟩
  ask_end prompt machine hnone := by
    obtain ⟨hinput, hasked⟩ := askPlainly_of_nil hnone
    have hsame : machine.streams.leaving "" = machine.streams :=
      congrArg (Streams.mk · machine.output machine.reports) hinput.symm
    exact ⟨_, hsame ▸ leads_ask prompt hasked⟩
  ask_line prompt _ _ _ hlines := by
    obtain ⟨rest, hrest, hasked⟩ := askPlainly_of_cons hlines
    exact ⟨_, rest, hrest, leads_ask prompt hasked⟩
  plain _ := linesOf_of_not_mem

end Machine

end Curly
