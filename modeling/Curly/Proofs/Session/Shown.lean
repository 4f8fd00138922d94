import Curly.Proofs.Session.Reading

/-!
# What a session shows

Of all that a session shows, the texts of its answers in their order are what it prints
(`printed_events`). It shows a diagnostic just where it does not answer a block with a text
(`quiet_iff`), and without diagnostics all that it reports are entries of the journal
(`exists_entries_of_quiet`). Entries make no difference to either: `said` leaves them out.
-/

namespace Curly.Session

variable {style : Layout.Style} {level : Journal.Level} {lines : List String} {block : String}
  {effects : List (String × Effect)} {shown : List Event}

/-! ## Output -/

/-- The text that is printed, if any. -/
def Event.printed : Event → String
  | .print text => text
  | .report _ | .note _ => ""

/-- All text that is printed. -/
def printed (events : List Event) : String := String.join (events.map Event.printed)

/-- All that lines with their effects show. -/
def events (style : Layout.Style) (effects : List (String × Effect)) : List Event :=
  effects.flatMap (lineEvents style)

/-- The text of an answer to a block that is not rejected. -/
def Answer.text : Answer → String
  | .formatted text => text
  | .rejected _ => ""

theorem events_cons (style : Layout.Style) (e : String × Effect)
    (effects : List (String × Effect)) :
    events style (e :: effects) = lineEvents style e ++ events style effects := List.flatMap_cons

@[simp] theorem printed_nil : printed [] = "" := rfl

@[simp] theorem printed_cons (e : Event) (events : List Event) :
    printed (e :: events) = e.printed ++ printed events := by
  simp [printed]

@[simp] theorem printed_append (events events' : List Event) :
    printed (events ++ events') = printed events ++ printed events' := by
  simp [printed]

@[simp] theorem printed_notes (entries : List Journal.Entry) :
    printed (entries.map .note) = "" := by
  induction entries with
  | nil => rfl
  | cons e entries ih => rw [List.map_cons, printed_cons, ih]; rfl

@[simp] theorem printed_examination (line block : String) :
    printed (examination line block) = "" := by
  rw [examination]
  split
  · rfl
  · exact printed_notes _

/-- An answer prints its text. -/
theorem printed_answerEvents (style : Layout.Style) (block : String) :
    printed (answerEvents style block) = (answer style block).text := by
  rw [answerEvents, printed_append, printed_notes, String.empty_append]
  cases answer style block <;> simp [Event.printed, Answer.text]

/-- A line prints the answer to the block that it closes. -/
theorem printed_lineEvents (style : Layout.Style) (e : String × Effect) :
    printed (lineEvents style e) =
      String.join ((blocks [e]).map fun block => (answer style block).text) := by
  obtain ⟨line, effect⟩ := e
  cases effect with
  | quit | skip => rfl
  | extend pending =>
    rw [lineEvents, printed_examination]
    rfl
  | submit block =>
    rw [lineEvents, printed_append, printed_examination, printed_answerEvents]
    simp [blocks]

/-- **A session prints the texts of its answers**, one after the other. -/
theorem printed_events (style : Layout.Style) (effects : List (String × Effect)) :
    printed (events style effects) =
      String.join ((blocks effects).map fun block => (answer style block).text) := by
  induction effects with
  | nil => rfl
  | cons e effects ih =>
    have hblocks : blocks (e :: effects) = blocks [e] ++ blocks effects :=
      List.filterMap_append (l := [e]) ..
    rw [events_cons, printed_append, ih, printed_lineEvents, hblocks, List.map_append,
      String.join_append]

/-! ## Diagnostics -/

/-- A session that is given these lines shows no diagnostic. -/
def Quiet (style : Layout.Style) (lines : List String) : Prop :=
  ∀ message, .report message ∉ events style (read "" lines).1

theorem report_mem_lineEvents {message : String} {e : String × Effect}
    (h : .report message ∈ lineEvents style e) :
    ∃ block, e.2 = .submit block ∧ answer style block = .rejected message := by
  obtain ⟨line, effect⟩ := e
  have hexamination : ∀ block, .report message ∉ examination line block := by
    intro block
    rw [examination]
    split <;> simp
  cases effect with
  | quit | skip => cases h
  | extend pending => exact absurd h (hexamination pending)
  | submit block =>
    refine ⟨block, rfl, ?_⟩
    have hanswer := (List.mem_append.1 h).resolve_left (hexamination block)
    rw [answerEvents] at hanswer
    cases hblock : answer style block with
    | formatted text => simp [hblock] at hanswer
    | rejected diagnostic =>
      obtain rfl : message = diagnostic := by simpa [hblock] using hanswer
      rfl

/-- **A session shows no diagnostic just where it rejects no block.** -/
theorem quiet_iff : Quiet style lines ↔ ∀ block ∈ blocks (read "" lines).1,
    ∃ text, answer style block = .formatted text := by
  constructor
  · intro h block hblock
    obtain ⟨⟨line, effect⟩, he, hsubmit⟩ := List.mem_filterMap.1 hblock
    cases effect with
    | quit | skip | extend => cases hsubmit
    | submit block' =>
      have hsame : block' = block := Option.some.inj hsubmit
      rw [hsame] at he
      cases hanswer : answer style block with
      | formatted text => exact ⟨text, rfl⟩
      | rejected diagnostic =>
        have hshown : .report diagnostic ∈ answerEvents style block := by
          rw [answerEvents, hanswer]
          exact List.mem_append_right _ List.mem_cons_self
        exact absurd (List.mem_flatMap.2 ⟨_, he, List.mem_append_right _ hshown⟩) (h diagnostic)
  · intro h message hmem
    obtain ⟨⟨line, effect⟩, he, hline⟩ := List.mem_flatMap.1 hmem
    obtain ⟨block, rfl, hrejected⟩ := report_mem_lineEvents hline
    obtain ⟨text, htext⟩ := h block (List.mem_filterMap.2 ⟨_, he, rfl⟩)
    rw [hrejected] at htext
    cases htext

/-! ## Reports -/

/-- What is reported of it, to a reader who asks for this level. -/
def Event.reported (level : Journal.Level) : Event → String
  | .print _ => ""
  | .report message => message ++ "\n"
  | .note e => if e.isAt level then e.line ++ "\n" else ""

/-- All that is reported. -/
def reported (level : Journal.Level) (events : List Event) : String :=
  String.join (events.map (Event.reported level))

/-- Whether it is an entry of the journal. -/
def Event.isNote : Event → Bool
  | .note _ => true
  | .print _ | .report _ => false

/-- What is shown besides the entries of the journal. -/
def said (events : List Event) : List Event := events.filter fun e => !e.isNote

@[simp] theorem said_nil : said [] = [] := rfl

@[simp] theorem said_append (events events' : List Event) :
    said (events ++ events') = said events ++ said events' := List.filter_append ..

@[simp] theorem said_notes (entries : List Journal.Entry) : said (entries.map .note) = [] := by
  simp [said, Event.isNote]

/-- Entries of the journal are not printed. -/
theorem printed_said (events : List Event) : printed (said events) = printed events := by
  induction events with
  | nil => rfl
  | cons e events ih =>
    cases e with
    | note entry =>
      rw [printed_cons, ← ih]
      rfl
    | print | report =>
      rw [printed_cons, ← ih]
      exact printed_cons _ _

/-- **Where no diagnostic is shown, all that is reported are entries of the journal.** -/
theorem exists_entries_of_quiet (level : Journal.Level) (h : ∀ message, .report message ∉ shown) :
    ∃ entries : List Journal.Entry,
      reported level shown = String.join (entries.map fun e => e.line ++ "\n") := by
  induction shown with
  | nil => exact ⟨[], rfl⟩
  | cons e shown ih =>
    obtain ⟨entries, hentries⟩ := ih fun message hmem => h message (List.mem_cons_of_mem _ hmem)
    have hcons : reported level (e :: shown) = e.reported level ++ reported level shown := by
      simp [reported]
    rw [hcons, hentries]
    cases e with
    | print text => exact ⟨entries, String.empty_append⟩
    | report message => exact absurd List.mem_cons_self (h message)
    | note entry =>
      by_cases hlevel : entry.isAt level = true
      · refine ⟨entry :: entries, ?_⟩
        rw [Event.reported, if_pos hlevel, List.map_cons, String.join_cons]
      · refine ⟨entries, ?_⟩
        rw [Event.reported, if_neg hlevel, String.empty_append]

end Curly.Session
