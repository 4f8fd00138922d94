import Curly.Proofs.Host.Leads
import Curly.Proofs.Session.Shown

/-!
# The streams of a machine

What can be seen of a session is what has been read of the input and what stands on the output and
among the reports (`Streams`). `Host.Piped` is what is relied on of the services where the input is
no terminal: that the editor gives the lines of the input one after the other and prints nothing
when it asks for them, that it does not fail, and that text is written where it belongs. Which lines
the editor finds in an input is known only of inputs without backspaces.
-/

namespace Curly

/-- What has not been read, and what has been written. -/
structure Streams where
  input : String
  output : String
  reports : String

namespace Streams

/-- The streams after something has been shown to a reader who asks for this level. -/
def shown (v : Streams) (level : Journal.Level) (events : List Session.Event) : Streams :=
  { v with
    output := v.output ++ Session.printed events
    reports := v.reports ++ Session.reported level events }

/-- The streams with this left to be read. -/
def leaving (v : Streams) (rest : String) : Streams := { v with input := rest }

variable {v : Streams} {level : Journal.Level} {events events' : List Session.Event}

@[simp] theorem shown_nil (v : Streams) (level : Journal.Level) : v.shown level [] = v := by
  simp [shown, Session.reported]

@[simp] theorem shown_shown : (v.shown level events).shown level events' =
    v.shown level (events ++ events') := by
  simp [shown, Session.reported, String.append_assoc]

theorem leaving_shown (rest : String) :
    (v.shown level events).leaving rest = (v.leaving rest).shown level events := rfl

end Streams

/-- The services show text on the streams and touch them for nothing else. The editor takes the
lines off the input that `linesOf` finds in it, prints nothing, and never fails but with a file. -/
structure Host.Piped {σ : Type} (host : Host (StateM σ)) (streams : σ → Streams)
    (linesOf : String → List String) : Prop where
  print : ∀ text s, Leads streams (host.print text) s ()
    { streams s with output := (streams s).output ++ text }
  report : ∀ text s, Leads streams (host.report text) s ()
    { streams s with reports := (streams s).reports ++ text }
  contains : ∀ path s, ∃ found, Leads streams (host.contains path) s found (streams s)
  start : ∀ capacity s, ∃ notes,
    Leads streams (host.editor.start capacity) s ⟨.ok (), notes⟩ (streams s)
  load : ∀ path s, ∃ noted, Leads streams (host.editor.load path) s noted (streams s)
  remember : ∀ line s, ∃ notes,
    Leads streams (host.editor.remember line) s ⟨.ok (), notes⟩ (streams s)
  save : ∀ path s, ∃ noted, Leads streams (host.editor.save path) s noted (streams s)
  /-- Where there are no more lines the editor gives none. -/
  ask_end : ∀ prompt s, linesOf (streams s).input = [] → ∃ notes,
    Leads streams (host.editor.ask prompt) s ⟨.ended, notes⟩ (streams s)
  /-- The editor gives the first line there is and leaves the others. -/
  ask_line : ∀ prompt s line lines, linesOf (streams s).input = line :: lines →
    ∃ notes rest, linesOf rest = lines ∧
      Leads streams (host.editor.ask prompt) s ⟨.line line, notes⟩ ((streams s).leaving rest)
  /-- Without backspaces the lines are those of the text. -/
  plain : ∀ input, Text.backspace ∉ input.toList →
    linesOf input = (Text.lines input.toList).map String.ofList

end Curly
