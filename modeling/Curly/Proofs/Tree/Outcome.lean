import Curly.Proofs.Tree.Reading

/-!
# What reading a token can come to

Whatever a builder waits for, a token is either taken, and then a builder that waits for a colon
has one ahead, or it is refused with an error that stands at it and says what it is, or it closes
an include list without entries (`outcome_read`). Looking ahead matters only to a builder inside an
import, and all it asks is whether a string or a colon comes next (`SameAhead`).
-/

namespace Curly

/-- What an error says of the token at which it stands is so: the kind or the keyword that has been
found there, and what it is that cannot stand there or is not read yet. -/
def GrammarError.Cause.Fits (cause : GrammarError.Cause) (t : Token) : Prop :=
  match cause with
  | .unexpectedToken found => found = t.kind ∧ ∀ k, found ≠ .keyword k
  | .unexpectedKeyword found => .keyword found = t.kind
  | .expected _ found => found = t.kind
  | .emptyIncludes => False
  | .mixedWildcard => t.kind = .identifier ∨ t.isOperator "*"
  | .notImplemented .bindings => t.kind = .keyword .let_
  | .notImplemented .arrowBodies => t.kind = .arrow

namespace Builder

/-- Whether the next token but for passable ones has to be the colon of an import. -/
def awaitsColon (b : Builder) : Bool :=
  match b.slot with
  | .includeColon .. => true
  | _ => false

/-- A colon that is waited for is ahead. -/
def ColonAhead (b : Builder) (ts : List Token) : Prop :=
  b.awaitsColon → kindAhead? ts = some .colon

/-- What comes of reading `t` with `ahead` after it. -/
inductive Outcome (b : Builder) (t : Token) (ahead : List Token) : Reading → Prop
  | ok {b' : Builder} (colon : b'.ColonAhead ahead) : Outcome b t ahead (.ok b')
  | refused {error : GrammarError} (position : error.position = t.span.start)
    (fits : error.cause.Fits t) : Outcome b t ahead (.error ⟨error, b, t :: ahead⟩)
  | noEntries {start opened : Position} {specifier : String} (isClosing : t.kind = .rbrace)
    (isOpen : b.slot = .includes start specifier opened (.names [])) :
    Outcome b t ahead (.error ⟨⟨.emptyIncludes, opened⟩, b, ahead⟩)

/-- Whether what is ahead can matter: inside an import up to its colon. -/
def looksAhead (b : Builder) : Bool :=
  match b.slot with
  | .specifier _ | .includeColon .. => true
  | _ => false

/-- What is ahead is the same to a builder that waits for a string or a colon. -/
def SameAhead (xs ys : List Token) : Prop :=
  ∀ kind, kind = .string ∨ kind = .colon → (kindAhead? xs = some kind ↔ kindAhead? ys = some kind)

variable {b b' : Builder} {t : Token} {ts ahead : List Token}

theorem colonAhead_of_not_awaitsColon (h : b.awaitsColon = false) : b.ColonAhead ts := by
  rw [ColonAhead, h]
  exact nofun

/-! ## One slot -/

theorem Outcome.ofToken {cause : GrammarError.Cause} (h : cause.Fits t) :
    Outcome b t ahead (b.refuse (.ofToken cause t) t ahead) :=
  .refused rfl h

theorem outcome_refuseFor (what : String) : Outcome b t ahead (b.refuseFor what t ahead) :=
  .ofToken rfl

theorem outcome_refuseUnexpected : Outcome b t ahead (b.refuseUnexpected t ahead) := by
  rw [refuseUnexpected, GrammarError.unexpected]
  split
  · exact .ofToken (Eq.symm ‹_›)
  · exact .ofToken ⟨rfl, ‹_›⟩

theorem outcome_readItem : Outcome b t ahead (b.readItem t ahead) := by
  unfold readItem
  split
  case h_7 => exact .ofToken ‹_›
  case h_9 => exact outcome_refuseFor _
  case h_10 => exact outcome_refuseUnexpected
  all_goals exact .ok nofun

section Slots

variable {start opened : Position} {specifier name param : String} {entries : Includes}
  {params : List Param} {values : List EnumValue} {head : FnHead}

theorem outcome_readSpecifier (hb : b.slot = .specifier start) :
    Outcome b t ahead (b.readSpecifier start t ahead) := by
  unfold readSpecifier
  split
  · split
    · exact .ok fun _ => ‹_›
    · exact .ok nofun
  · split
    · exact .ok (by simp [ColonAhead, awaitsColon, hb])
    · exact outcome_refuseFor _

theorem outcome_readIncludeColon :
    Outcome b t ahead (b.readIncludeColon start specifier t ahead) := by
  unfold readIncludeColon
  split
  · exact .ok nofun
  · split
    · next hahead => exact .ok fun _ => hahead.2
    · exact outcome_refuseUnexpected

variable (hb : b.awaitsColon = false)

include hb

/-- A token that is passed over. -/
theorem outcome_pass : Outcome b t ahead (.ok b) := .ok (colonAhead_of_not_awaitsColon hb)

theorem outcome_readIncludeOpen :
    Outcome b t ahead (b.readIncludeOpen start specifier t ahead) := by
  unfold readIncludeOpen
  split
  · exact outcome_pass hb
  · exact .ok nofun
  · exact outcome_refuseFor _

theorem outcome_readIncludes (hslot : b.slot = .includes start specifier opened entries) :
    Outcome b t ahead (b.readIncludes start specifier opened entries t ahead) := by
  unfold readIncludes
  split
  · exact outcome_pass hb
  · split
    · unfold closeIncludes
      split
      · exact .noEntries ‹_› hslot
      · exact .ok nofun
      · exact .ok nofun
    · split
      · split
        · exact .ok nofun
        · exact .ofToken ‹t.kind = .identifier ∨ _›
      · split
        · exact outcome_refuseFor _
        · exact outcome_refuseUnexpected

theorem outcome_readEnumName : Outcome b t ahead (b.readEnumName start t ahead) := by
  unfold readEnumName
  split
  · exact outcome_pass hb
  · exact .ok nofun
  · exact outcome_refuseFor _

theorem outcome_readEnumOpen : Outcome b t ahead (b.readEnumOpen start name t ahead) := by
  unfold readEnumOpen
  split
  · exact outcome_pass hb
  · exact .ok nofun
  · exact outcome_refuseFor _

theorem outcome_readEnumValues :
    Outcome b t ahead (b.readEnumValues start name values t ahead) := by
  unfold readEnumValues
  split
  · exact outcome_pass hb
  · exact outcome_pass hb
  · exact outcome_pass hb
  · exact .ok nofun
  · exact .ok nofun
  · exact outcome_refuseFor _
  · exact outcome_refuseUnexpected

theorem outcome_readFnName : Outcome b t ahead (b.readFnName start t ahead) := by
  unfold readFnName
  split
  · exact outcome_pass hb
  · exact .ok nofun
  · exact outcome_refuseFor _

theorem outcome_readFnOpen : Outcome b t ahead (b.readFnOpen start name t ahead) := by
  unfold readFnOpen
  split
  · exact outcome_pass hb
  · exact .ok nofun
  · exact outcome_refuseFor _

theorem outcome_readParams : Outcome b t ahead (b.readParams start name params t ahead) := by
  unfold readParams
  split
  · exact outcome_pass hb
  · exact outcome_pass hb
  · exact outcome_pass hb
  · exact .ok nofun
  · exact .ok nofun
  · exact outcome_refuseFor _

theorem outcome_readParamType :
    Outcome b t ahead (b.readParamType start name params param t ahead) := by
  unfold readParamType
  split
  · exact outcome_pass hb
  · exact .ok nofun
  · exact .ok nofun
  · exact outcome_refuseFor _

theorem outcome_readBody : Outcome b t ahead (b.readBody start head t ahead) := by
  unfold readBody
  split
  · exact outcome_pass hb
  · exact .ok nofun
  · exact .ofToken ‹_›
  · exact outcome_refuseFor _

theorem outcome_readReturns : Outcome b t ahead (b.readReturns start name params t ahead) := by
  unfold readReturns
  split
  · exact .ok nofun
  · exact .ok nofun
  · exact outcome_readBody hb

end Slots

/-! ## Any slot -/

/-- **Every token is taken, refused where it stands, or ends an include list too early.** -/
theorem outcome_read (b : Builder) (t : Token) (ahead : List Token) :
    Outcome b t ahead (b.read t ahead) := by
  unfold read
  split
  case h_1 => exact outcome_readItem
  case h_2 => exact outcome_readSpecifier ‹_›
  case h_3 => exact outcome_readIncludeColon
  all_goals have hb : b.awaitsColon = false := by rw [awaitsColon, ‹b.slot = _›]
  case h_4 => exact outcome_readIncludeOpen hb
  case h_5 => exact outcome_readIncludes hb ‹_›
  case h_6 => exact outcome_readEnumName hb
  case h_7 => exact outcome_readEnumOpen hb
  case h_8 => exact outcome_readEnumValues hb
  case h_9 => exact outcome_readFnName hb
  case h_10 => exact outcome_readFnOpen hb
  case h_11 => exact outcome_readParams hb
  case h_12 => exact outcome_readParamType hb
  case h_13 => exact outcome_readReturns hb
  case h_14 => exact outcome_readBody hb

/-- Spacing is never refused, except where a colon is missing. -/
theorem read_spacing (ht : t.kind = .spacing) (hcolon : b.ColonAhead (t :: ts)) :
    b.read t ts = .ok b ∨ b.slot = .item ∧ b.read t ts = .ok (b.push (.spacing t.span)) := by
  cases hslot : b.slot
  case item =>
    refine .inr ⟨rfl, ?_⟩
    simp only [read, hslot, readItem, ht]
  case includeColon =>
    have hahead := hcolon (by rw [awaitsColon, hslot])
    rw [kindAhead?_of_passable (by rw [ht]; rfl)] at hahead
    left
    simp [read, hslot, readIncludeColon, ht, hahead, Token.Kind.isPassable]
  all_goals
    left
    simp [read, hslot, readSpecifier, readIncludeOpen, readIncludes, readEnumName, readEnumOpen,
      readEnumValues, readFnName, readFnOpen, readParams, readParamType, readReturns, readBody, ht,
      Token.Kind.isTrivia]

/-- The end of input is taken nowhere. -/
theorem read_eof_ne_ok (ht : t.kind = .eof) : b.read t [] ≠ .ok b' := by
  have hnone : kindAhead? [] = none := rfl
  have hstar : ∀ op, t.isOperator op = false := fun op => by simp [Token.isOperator, ht]
  cases hslot : b.slot
  case item =>
    cases houter : b.outer <;> simp [read, hslot, readItem, ht, houter, refuseUnexpected,
      refuseFor, refuse]
  all_goals
    simp [read, hslot, readSpecifier, readIncludeColon, readIncludeOpen, readIncludes, readEnumName,
      readEnumOpen, readEnumValues, readFnName, readFnOpen, readParams, readParamType, readReturns,
      readBody, ht, hnone, hstar, Token.Kind.isTrivia, refuseUnexpected, refuseFor, refuse]

/-- A template is refused everywhere, and it does not matter what is in it. -/
theorem exists_read_template (b : Builder) (ht : t.kind = .template) :
    ∃ cause, ∀ literal ahead, b.read { t with literal := literal } ahead =
      b.refuse ⟨cause, t.span.start⟩ { t with literal := literal } ahead := by
  cases hslot : b.slot
  all_goals
    apply Exists.intro
    intro literal ahead
    simp only [read, hslot, readItem, readSpecifier, readIncludeColon, readIncludeOpen,
      readIncludes, readEnumName, readEnumOpen, readEnumValues, readFnName, readFnOpen, readParams,
      readParamType, readReturns, readBody, ht, Token.Kind.isTrivia, Token.Kind.isPassable,
      Token.isOperator, reduceCtorEq, false_and, or_self, Bool.false_eq_true, if_false,
      refuseUnexpected, refuseFor, GrammarError.unexpected, GrammarError.expected]
    rfl

theorem colonAhead_of_read (h : b.read t ahead = .ok b') : b'.ColonAhead ahead := by
  have houtcome := outcome_read b t ahead
  rw [h] at houtcome
  cases houtcome with
  | ok colon => exact colon

end Builder

end Curly
