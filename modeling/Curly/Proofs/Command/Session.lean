import Curly.Command.Session
import Curly.Proofs.Host.Streams

/-!
# A session on piped streams

Where the input is no terminal, a session shows its banner and then what the lines of the input
come to, whatever else stands in its settings (`leads_repl`). One turn shows what its line comes to
(`leads_turn`), the loop by induction on the lines what all of them do (`leads_loop`). The editor
may have entries for the journal at any time, so what is shown is known up to such entries.
-/

namespace Curly.Command

open Session (Event said)

variable {σ : Type} {streams : σ → Streams} {linesOf : String → List String}
  {host : Host (StateM σ)} {s : σ} {pending line : String} {lines : List String}
  {after : Streams}

section Piped

variable (hhost : host.Piped streams linesOf) (level : Journal.Level)
include hhost

/-! ## Showing -/

theorem leads_note (entries : List Journal.Entry) (s : σ) :
    Leads streams (note host level entries) s ()
      ((streams s).shown level (entries.map .note)) := by
  unfold note
  induction entries generalizing s with
  | nil => exact .pure_of_eq (by simp)
  | cons e entries ih =>
    have hcons : (e :: entries).map Event.note = [.note e] ++ entries.map .note := rfl
    rw [hcons, ← Streams.shown_shown]
    by_cases he : e.isAt level = true
    · rw [List.filter_cons_of_pos he]
      refine (hhost.report (e.line ++ "\n") s).bind fun s' hs' => ?_
      have hone : streams s' = (streams s).shown level [.note e] := by
        rw [hs']
        simp [Streams.shown, Session.reported, Event.reported, Event.printed, he]
      rw [← hone]
      exact ih s'
    · have hone : (streams s).shown level [.note e] = streams s := by
        simp [Streams.shown, Session.reported, Event.reported, Event.printed, he]
      rw [List.filter_cons_of_neg he, hone]
      exact ih s

theorem leads_show (e : Event) (s : σ) :
    Leads streams (show_ host level e) s () ((streams s).shown level [e]) := by
  cases e with
  | print text =>
    have hone : (streams s).shown level [.print text] =
        { streams s with output := (streams s).output ++ text } := by
      simp [Streams.shown, Session.reported, Event.reported, Event.printed]
    rw [hone]
    exact hhost.print text s
  | report message =>
    have hone : (streams s).shown level [.report message] =
        { streams s with reports := (streams s).reports ++ (message ++ "\n") } := by
      simp [Streams.shown, Session.reported, Event.reported, Event.printed]
    rw [hone]
    exact hhost.report _ s
  | note entry => exact leads_note hhost level [entry] s

theorem leads_forM_show (events : List Event) (s : σ) :
    Leads streams (events.forM (show_ host level)) s () ((streams s).shown level events) := by
  induction events generalizing s with
  | nil => exact .pure_of_eq (by simp)
  | cons e events ih =>
    rw [← List.singleton_append, ← Streams.shown_shown]
    refine (leads_show hhost level e s).forM_cons fun s' hs' => ?_
    rw [← hs']
    exact ih s'

/-! ## The editor -/

theorem leads_heed {α : Type} {call : StateM σ (Session.Noted α)} {a : α}
    {notes : List Journal.Entry} (hcall : Leads streams call s ⟨a, notes⟩ after) :
    Leads streams (heed host level call) s a (after.shown level (notes.map .note)) := by
  refine hcall.bind fun s₁ h₁ => ?_
  have hnote := leads_note hhost level notes s₁
  rw [h₁] at hnote
  exact hnote.bind fun s₂ h₂ => .pure_of_eq h₂

theorem leads_heedOrFail (failure : String → Failure)
    {call : StateM σ (Session.Noted (Except String Unit))}
    {notes : List Journal.Entry} (hcall : Leads streams call s ⟨.ok (), notes⟩ after) :
    Leads streams (heedOrFail host level failure call).run s (.ok ())
      (after.shown level (notes.map .note)) :=
  Leads.bind_ok (.lift (leads_heed hhost level hcall)) fun _ h => .pure_of_eq h

/-- Where failure is only noted, nothing but entries of the journal is shown. -/
theorem leads_heedOrWarn {call : StateM σ (Session.Noted (Except String Unit))}
    {noted : Session.Noted (Except String Unit)} (action path : String)
    (hcall : Leads streams call s noted after) : ∃ entries : List Journal.Entry,
      Leads streams (heedOrWarn host level action path call) s ()
        (after.shown level (entries.map .note)) := by
  obtain ⟨outcome, notes⟩ := noted
  cases outcome with
  | ok => exact ⟨notes, (leads_heed hhost level hcall).bind fun _ h => .pure_of_eq h⟩
  | error reason =>
    let fault := Journal.warn ("could not " ++ action ++ " history " ++ path ++ ": " ++ reason)
    refine ⟨notes ++ [fault], (leads_heed hhost level hcall).bind fun s₁ h₁ => ?_⟩
    rw [List.map_append, ← Streams.shown_shown, ← h₁]
    exact leads_note hhost level _ s₁

theorem leads_loadHistory (settings : Settings) (s : σ) : ∃ entries : List Journal.Entry,
    Leads streams (loadHistory host settings level) s ()
      ((streams s).shown level (entries.map .note)) := by
  unfold loadHistory
  cases settings.session.historyFile with
  | none => exact ⟨[], .pure_of_eq (by simp)⟩
  | some path =>
    obtain ⟨found, hfound⟩ := hhost.contains path s
    obtain ⟨s₁, h₁, hnext⟩ := hfound.exists_next
    cases found with
    | false => exact ⟨[], hnext (.pure_of_eq (by simpa using h₁))⟩
    | true =>
      obtain ⟨noted, hload⟩ := hhost.load path s₁
      rw [h₁] at hload
      obtain ⟨entries, hentries⟩ := leads_heedOrWarn hhost level "load" path hload
      exact ⟨entries, hnext hentries⟩

theorem leads_saveHistory (settings : Settings) (s : σ) : ∃ entries : List Journal.Entry,
    Leads streams (saveHistory host settings level) s ()
      ((streams s).shown level (entries.map .note)) := by
  unfold saveHistory
  cases settings.session.historyFile with
  | none => exact ⟨[], .pure_of_eq (by simp)⟩
  | some path =>
    obtain ⟨noted, hsave⟩ := hhost.save path s
    exact leads_heedOrWarn hhost level "save" path hsave

/-! ## Turns -/

theorem leads_rememberLine (line : String) (s : σ) : ∃ entries : List Journal.Entry,
    Leads streams (rememberLine host level line).run s (.ok ())
      ((streams s).shown level (entries.map .note)) := by
  unfold rememberLine
  split
  · exact ⟨[], .pure_of_eq (by simp)⟩
  · obtain ⟨notes, hremember⟩ := hhost.remember line s
    exact ⟨notes, leads_heedOrFail hhost level .broken hremember⟩

/-- A line that does not end the session shows what it comes to. -/
theorem leads_takeLine (settings : Settings) (s : σ)
    (hquit : Session.effect pending line ≠ .quit) :
    ∃ shown, said shown = said (Session.lineEvents settings.style
        (line, Session.effect pending line)) ∧
      Leads streams (takeLine host settings level pending line).run s
        (.ok (.inl (Session.effect pending line).pending)) ((streams s).shown level shown) := by
  unfold takeLine
  dsimp only
  rw [if_neg hquit]
  obtain ⟨entries, hremember⟩ := leads_rememberLine hhost level line s
  obtain ⟨s₁, h₁, hnext⟩ := hremember.exists_next_ok
  let events := Session.lineEvents settings.style (line, Session.effect pending line)
  refine ⟨entries.map .note ++ events, by simp [events], hnext ?_⟩
  rw [← Streams.shown_shown, ← h₁]
  exact (Leads.lift (leads_forM_show hhost level events s₁)).bind_ok fun _ h => .pure_of_eq h

/-- Where there are no more lines, the session ends. -/
theorem leads_turn_end (settings : Settings) (pending : String)
    (hlines : linesOf (streams s).input = []) : ∃ entries : List Journal.Entry,
      Leads streams (turn host settings level pending).run s (.ok (.inr ()))
        ((streams s).shown level (entries.map .note)) := by
  obtain ⟨notes, hask⟩ := hhost.ask_end (settings.session.promptFor pending) s hlines
  exact ⟨notes, Leads.bind_ok (.lift (leads_heed hhost level hask)) fun _ h => .pure_of_eq h⟩

/-- The line that ends a session shows nothing. -/
theorem leads_turn_quit (settings : Settings)
    (hlines : linesOf (streams s).input = line :: lines)
    (hquit : Session.effect pending line = .quit) :
    ∃ rest, ∃ entries : List Journal.Entry,
      Leads streams (turn host settings level pending).run s (.ok (.inr ()))
        (((streams s).leaving rest).shown level (entries.map .note)) := by
  obtain ⟨notes, rest, -, hask⟩ :=
    hhost.ask_line (settings.session.promptFor pending) s line lines hlines
  refine ⟨rest, notes, Leads.bind_ok (.lift (leads_heed hhost level hask)) fun s₁ h₁ => ?_⟩
  unfold takeLine
  dsimp only
  rw [if_pos hquit]
  exact .pure_of_eq h₁

/-- **A turn shows what its line comes to.** -/
theorem leads_turn (settings : Settings) (hlines : linesOf (streams s).input = line :: lines)
    (hquit : Session.effect pending line ≠ .quit) :
    ∃ rest shown, linesOf rest = lines ∧ said shown = said (Session.lineEvents settings.style
        (line, Session.effect pending line)) ∧
      Leads streams (turn host settings level pending).run s
        (.ok (.inl (Session.effect pending line).pending))
        (((streams s).leaving rest).shown level shown) := by
  obtain ⟨notes, rest, hrest, hask⟩ :=
    hhost.ask_line (settings.session.promptFor pending) s line lines hlines
  obtain ⟨s₁, h₁, hnext⟩ := (leads_heed hhost level hask).exists_next_lift
  obtain ⟨shown, hshown, htake⟩ := leads_takeLine hhost level settings s₁ hquit
  refine ⟨rest, notes.map .note ++ shown, hrest, by simpa using hshown, hnext ?_⟩
  rw [← Streams.shown_shown, ← h₁]
  exact htake

/-! ## Sessions -/

/-- **The loop shows what all lines come to.** -/
theorem leads_loop (settings : Settings) (pending : String) (s : σ)
    (hlines : linesOf (streams s).input = lines) :
    ∃ rest shown, said shown = said (Session.events settings.style
        (Session.read pending lines).1) ∧
      Leads streams (repeatM (turn host settings level) pending).run s (.ok ())
        (((streams s).leaving rest).shown level shown) := by
  induction lines generalizing pending s with
  | nil =>
    obtain ⟨entries, hturn⟩ := leads_turn_end hhost level settings pending hlines
    exact ⟨(streams s).input, entries.map .note, by simp [Session.read, Session.events],
      Leads.repeatM_stop hturn⟩
  | cons line lines ih =>
    by_cases hquit : Session.effect pending line = .quit
    · obtain ⟨rest, entries, hturn⟩ := leads_turn_quit hhost level settings hlines hquit
      refine ⟨rest, entries.map .note, ?_, Leads.repeatM_stop hturn⟩
      rw [Session.read, hquit]
      simp [Session.events, Session.lineEvents]
    · obtain ⟨rest, shown, hrest, hshown, hturn⟩ :=
        leads_turn hhost level settings hlines hquit
      obtain ⟨s₁, h₁, hnext⟩ := Leads.repeatM_step hturn
      obtain ⟨rest', later, hlater, hloop⟩ :=
        ih (Session.effect pending line).pending s₁ (by rw [h₁]; exact hrest)
      refine ⟨rest', shown ++ later, ?_, hnext ?_⟩
      · rw [Session.read_cons hquit, Session.events_cons, Session.said_append, Session.said_append,
          hshown, hlater]
      · rw [h₁] at hloop
        rw [← Streams.shown_shown]
        exact hloop

/-- **A session shows its banner and what its lines come to**, and nothing else but entries of the
journal. -/
theorem leads_repl (settings : Settings) (hlines : linesOf (streams s).input = lines) :
    ∃ rest shown, said shown =
        .print Session.banner :: said (Session.events settings.style
          (Session.read "" lines).1) ∧
      Leads streams (repl host settings level).run s (.ok ())
        (((streams s).leaving rest).shown level shown) := by
  unfold repl
  obtain ⟨started, hstart⟩ := hhost.start settings.session.historySize s
  have hready := leads_heedOrFail hhost level .notStarted hstart
  obtain ⟨s₁, h₁, hnext₁⟩ := hready.exists_next_ok
  obtain ⟨loaded, hload⟩ := leads_loadHistory hhost level settings s₁
  obtain ⟨s₂, h₂, hnext₂⟩ := hload.exists_next_lift
  have hbanner := leads_show hhost level (.print Session.banner) s₂
  obtain ⟨s₃, h₃, hnext₃⟩ := hbanner.exists_next_lift
  have hinput : linesOf (streams s₃).input = lines := by
    rw [h₃, h₂, h₁]
    exact hlines
  obtain ⟨rest, shown, hshown, hloop⟩ := leads_loop hhost level settings "" s₃ hinput
  obtain ⟨s₄, h₄, hnext₄⟩ := hloop.exists_next_ok
  obtain ⟨saved, hsave⟩ := leads_saveHistory hhost level settings s₄
  refine ⟨rest, started.map .note ++ (loaded.map .note ++ ([.print Session.banner] ++
    (shown ++ saved.map .note))), ?_, hnext₁ (hnext₂ (hnext₃ (hnext₄ ?_)))⟩
  · simp only [Session.said_append, Session.said_notes, List.nil_append, hshown]
    simp [said, Event.isNote]
  · rw [← Streams.shown_shown, ← Streams.shown_shown, ← Streams.shown_shown, ← Streams.shown_shown,
      ← Streams.leaving_shown, ← h₁, ← Streams.leaving_shown, ← h₂, ← Streams.leaving_shown, ← h₃,
      ← h₄]
    exact .lift hsave

end Piped

end Curly.Command
