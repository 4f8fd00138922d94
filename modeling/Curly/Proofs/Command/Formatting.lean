import Curly.Command.Run
import Curly.Proofs.Command.Telling
import Curly.Proofs.Layout.RoundTrip
import Curly.Proofs.Machine.Directory
import Curly.Proofs.Service.Settings
import Curly.Proofs.Settings.Programs

/-!
# Formatting a file

Formatting a file is all or nothing (`Command.format_allOrNothing`): what can fail before the file
is written, or with it, leaves every file as it is. Formatting it once more changes nothing, even
if the file is the one that the settings are in: a text that has been formatted is a program, and
programs that are read as settings give the standard ones (`View.settings_eq_of_stored`).
-/

namespace Curly

open Command

namespace View

variable {v v' : View} {reader : String → Option Settings} {config : Option String}
  {file text out out' : String}

/-! ## Canonical text -/

/-- The file has this text, and `out` is its canonical text with the settings that hold. -/
structure Formats (v : View) (reader : String → Option Settings) (config : Option String)
    (file text out : String) : Prop where
  hasText : v.text file = .ok text
  canonical : ∃ settings, v.settings reader config = .ok settings ∧
    (Source.mk file text).format settings.style = .ok out

theorem Formats.unique {text' : String} (h : v.Formats reader config file text out)
    (h' : v.Formats reader config file text' out') : text = text' ∧ out = out' := by
  obtain ⟨htext, settings, hsettings, hformat⟩ := h
  obtain ⟨htext', settings', hsettings', hformat'⟩ := h'
  obtain rfl := Except.ok.inj (htext.symm.trans htext')
  obtain rfl := Except.ok.inj (hsettings.symm.trans hsettings')
  exact ⟨rfl, Except.ok.inj (hformat.symm.trans hformat')⟩

/-- A text that is no program has no canonical text. -/
theorem not_formats_of_rejected {settings : Settings} {e : SourceError}
    (htext : v.text file = .ok text) (hsettings : v.settings reader config = .ok settings)
    (hformat : (Source.mk file text).format settings.style = .error e) :
    ¬ ∃ text out, v.Formats reader config file text out := by
  rintro ⟨text', out, htext', settings', hsettings', hformat'⟩
  obtain rfl := Except.ok.inj (htext.symm.trans htext')
  obtain rfl := Except.ok.inj (hsettings.symm.trans hsettings')
  rw [hformat] at hformat'
  cases hformat'

theorem Formats.exists_parse (h : v.Formats reader config file text out) :
    ∃ p, (Source.mk file text).parse = .ok p := by
  obtain ⟨-, settings, -, hformat⟩ := h
  obtain ⟨p, hp, -⟩ := Source.exists_parse_of_format hformat
  exact ⟨p, hp⟩

/-! ## Settings that are formatted -/

theorem mapError_eq_ok_iff {ε ε' α : Type} {f : ε → ε'} {x : Except ε α} {a : α} :
    x.mapError f = .ok a ↔ x = .ok a := by
  cases x <;> simp [Except.mapError]

/-- Settings in a file are those they were, unless they are in the file that is written. -/
theorem load_of_stored (h : v.Stored file out v') (htext : v.text file = .ok text) (path : String) :
    v'.load reader path = v.load reader path ∨
      v.load reader path = (Settings.parseWith reader text).mapError .content ∧
        v'.load reader path = (Settings.parseWith reader out).mapError .content := by
  unfold View.load
  rcases h.others path with hsame | ⟨hread, hstored⟩
  · left
    rw [View.text, hsame, View.text]
  · right
    have hpath : v.text path = .ok text := by rw [View.text, hread, ← View.text, htext]
    rw [hpath, View.text_eq_ok_iff.2 hstored]
    exact ⟨rfl, rfl⟩

/-- Settings that are the standard ones if they are good are so for the user as well. -/
theorem toOption_getD_of_standard {x : Except SettingsError Settings}
    (hx : ∀ s, x = .ok s → s = .standard) :
    (x.mapError LoadError.content).toOption.getD .standard = .standard := by
  cases x with
  | error e => rfl
  | ok s => exact hx s rfl

/-- The user's own settings are the same, if the two texts can only give the standard ones. -/
theorem userSettings_eq_of_stored (h : v.Stored file out v') (htext : v.text file = .ok text)
    (hbefore : ∀ s, Settings.parseWith reader text = .ok s → s = .standard)
    (hafter : ∀ s, Settings.parseWith reader out = .ok s → s = .standard) :
    v'.userSettings reader = v.userSettings reader := by
  have hpath : v'.userPath? = v.userPath? := by rw [View.userPath?, View.userPath?, h.valueOf]
  rw [View.userSettings, View.userSettings, hpath, h.contains]
  cases v.userPath? with
  | none => rfl
  | some path =>
    dsimp only
    rcases load_of_stored h htext path with hsame | ⟨hload, hload'⟩
    · rw [hsame]
    · rw [hload, hload', toOption_getD_of_standard hbefore, toOption_getD_of_standard hafter]

/-- **Formatting the settings leaves them as they are**, where the file can be formatted again. -/
theorem settings_eq_of_stored {settings settings' : Settings}
    (hreads : Settings.ReadsDocuments reader) (h : v.Stored file out v')
    (htext : v.text file = .ok text) (hbefore : ∃ p, (Source.mk file text).parse = .ok p)
    (hafter : ∃ p, (Source.mk file out).parse = .ok p)
    (hs : v.settings reader config = .ok settings)
    (hs' : v'.settings reader config = .ok settings') : settings' = settings := by
  obtain ⟨p, hp⟩ := hbefore
  obtain ⟨q, hq⟩ := hafter
  have hstandard : ∀ s, Settings.parseWith reader text = .ok s → s = .standard :=
    fun _ hs => Settings.eq_standard_of_program hreads hp hs
  have hstandard' : ∀ s, Settings.parseWith reader out = .ok s → s = .standard :=
    fun _ hs => Settings.eq_standard_of_program hreads hq hs
  cases config with
  | none =>
    rw [View.settings, userSettings_eq_of_stored h htext hstandard hstandard'] at hs'
    exact Except.ok.inj (hs'.symm.trans hs)
  | some path =>
    rw [View.settings, mapError_eq_ok_iff] at hs hs'
    rcases load_of_stored h htext path with hsame | ⟨hload, hload'⟩
    · exact Except.ok.inj (hs'.symm.trans (hsame.trans hs))
    · rw [hload, mapError_eq_ok_iff] at hs
      rw [hload', mapError_eq_ok_iff] at hs'
      rw [hstandard _ hs, hstandard' _ hs']

/-- A file that has been formatted stays as it is if it can be formatted again. -/
theorem Formats.eq_of_stored (hreads : Settings.ReadsDocuments reader)
    (h : v.Formats reader config file text out) (hstored : v.Stored file out v')
    {text' : String} (hagain : v'.Formats reader config file text' out') : out' = text' := by
  obtain rfl : out = text' :=
    Except.ok.inj ((View.text_eq_ok_iff.2 hstored.stored).symm.trans hagain.hasText)
  have hafter := hagain.exists_parse
  have hbefore := h.exists_parse
  obtain ⟨htext, settings, hsettings, hformat⟩ := h
  obtain ⟨-, settings', hsettings', hformat'⟩ := hagain
  obtain rfl := settings_eq_of_stored hreads hstored htext hbefore hafter hsettings hsettings'
  exact Except.ok.inj ((Source.format_of_reformat hformat hformat').symm.trans hformat)

end View

namespace Command

/-! ## One run -/

variable {σ : Type} {view : σ → View} {host : Host (StateM σ)}

/-- What performing the task comes to, one case for each end. -/
inductive Outcome (host : Host (StateM σ)) (view : σ → View) (config : Option String)
    (file : String) (check : Bool) (s : σ) : Except Failure Unit × σ → Prop
  /-- There is no canonical text. -/
  | failed {e : Failure} {s' : σ}
    (refused : ¬ ∃ text out, (view s).Formats host.readSettings config file text out)
    (stays : view s' = view s) : Outcome host view config file check s (.error e, s')
  /-- The text of the file is canonical. -/
  | kept {text : String} {s' : σ}
    (formats : (view s).Formats host.readSettings config file text text)
    (stays : view s' = view s) : Outcome host view config file check s (.ok (), s')
  /-- It is not, and this is all that is asked. -/
  | found {text out : String} {s' : σ} (checks : check = true)
    (formats : (view s).Formats host.readSettings config file text out) (differs : out ≠ text)
    (stays : view s' = view s) :
    Outcome host view config file check s (.error (.notFormatted file), s')
  /-- The canonical text cannot be written. -/
  | unwritable {text out : String} {e : FileError} {s₁ s' : σ} (writes : check = false)
    (formats : (view s).Formats host.readSettings config file text out) (stays : view s₁ = view s)
    (fails : ((host.write file out).run s₁).run = (.error e, s')) :
    Outcome host view config file check s (.error (.unwritable file e), s')
  /-- The canonical text is written. -/
  | written {text out : String} {s₁ s' : σ} (writes : check = false)
    (formats : (view s).Formats host.readSettings config file text out) (differs : out ≠ text)
    (stays : view s₁ = view s) (succeeds : ((host.write file out).run s₁).run = (.ok (), s')) :
    Outcome host view config file check s (.ok (), s')

namespace Outcome

variable {config : Option String} {file : String} {check : Bool} {s s₁ s' : σ}

theorem of_error {x : Work (StateM σ) Unit} {e : Failure}
    (hx : Tells view x.run s₁ (.error e)) (hs₁ : view s₁ = view s)
    (hrefused : ¬ ∃ text out, (view s).Formats host.readSettings config file text out) :
    Outcome host view config file check s (x.run.run s₁).run := by
  obtain ⟨hresult, hstays⟩ := hx
  have houtcome : Outcome host view config file check s (.error e, (x.run.run s₁).run.2) :=
    .failed hrefused (hstays.trans hs₁)
  rwa [← hresult] at houtcome

/-- With the settings that hold the file is formatted from a state that has the same view. -/
theorem of_format (hhost : host.Honest view) {settings : Settings} (level : Journal.Level)
    (hs₁ : view s₁ = view s)
    (hsettings : (view s).settings host.readSettings config = .ok settings) :
    Outcome host view config file check s
      ((format host settings level file check).run.run s₁).run := by
  rw [format]
  have hread := tells_readSource hhost file s₁
  rw [hs₁] at hread
  cases htext : (view s).text file with
  | error e =>
    rw [htext] at hread
    refine of_error (Leads.bind_error hread) hs₁ ?_
    rintro ⟨text, out, htext', -⟩
    rw [htext] at htext'
    cases htext'
  | ok text =>
    rw [htext] at hread
    refine Leads.ends_bind_ok hread fun s₂ h₂ => ?_
    refine Leads.ends_bind_ok (Leads.lift (tells_noteWork hhost level _ s₂)) fun s₃ h₃ => ?_
    have hs₃ : view s₃ = view s := h₃.trans (h₂.trans hs₁)
    have hreject : Tells view (orReject ⟨file, text⟩ _ : Work (StateM σ) String).run s₃ _ :=
      tells_orReject ((Source.mk file text).format settings.style) s₃
    cases hformat : (Source.mk file text).format settings.style with
    | error e =>
      rw [hformat] at hreject
      exact of_error (Leads.bind_error hreject) hs₃
        (View.not_formats_of_rejected htext hsettings hformat)
    | ok out =>
      have hformats : (view s).Formats host.readSettings config file text out :=
        ⟨htext, settings, hsettings, hformat⟩
      rw [hformat] at hreject
      refine Leads.ends_bind_ok hreject fun s₄ h₄ => ?_
      have hs₄ := h₄.trans hs₃
      by_cases hsame : out = text
      · rw [if_pos hsame]
        rw [hsame] at hformats
        exact .kept hformats hs₄
      · rw [if_neg hsame]
        cases check with
        | true => exact .found rfl hformats hsame hs₄
        | false =>
          rw [if_neg Bool.false_ne_true, run_lift_bind]
          cases hwrite : ((host.write file out).run s₄).run with
          | mk result s' =>
            cases result with
            | error e => exact .unwritable rfl hformats hs₄ hwrite
            | ok => exact .written rfl hformats hsame hs₄ hwrite

theorem succeeds (hhost : host.Honest view)
    (h : Outcome host view config file check s (.ok (), s')) :
    ∃ text out, (view s).Formats host.readSettings config file text out ∧
      (view s').read file = .ok out.toUTF8 ∧
      (view s' = view s ∨ (view s).Stored file out (view s')) := by
  cases h with
  | @kept text _ formats stays =>
    refine ⟨text, text, formats, ?_, .inl stays⟩
    rw [stays, View.text_eq_ok_iff.1 formats.hasText]
  | @written text out _ _ _ formats _ stays succeeds =>
    have hstored := hhost.stored_of_ok stays formats.hasText succeeds
    exact ⟨text, out, formats, hstored.stored, .inr hstored⟩

theorem fails {e : Failure} (hhost : host.Honest view)
    (h : Outcome host view config file false s (.error e, s')) : view s' = view s ∧
      ((¬ ∃ text out, (view s).Formats host.readSettings config file text out) ∨
        ∃ text out s' e, (view s).Formats host.readSettings config file text out ∧
          view s' = view s ∧ ((host.write file out).run s').run.1 = .error e) := by
  cases h with
  | failed refused stays => exact ⟨stays, .inl refused⟩
  | found checks => cases checks
  | @unwritable text out e s₁ _ _ formats stays fails =>
    exact ⟨(hhost.stays_of_error fails).trans stays,
      .inr ⟨text, out, s₁, e, formats, stays, by rw [fails]⟩⟩

/-- After success the task changes nothing any more. -/
theorem again {s₂ : σ} {r : Except Failure Unit} (hhost : host.Honest view)
    (hreads : Settings.ReadsDocuments host.readSettings)
    (h : Outcome host view config file check s (.ok (), s')) (hs₁ : view s₁ = view s')
    (hagain : Outcome host view config file check s₁ (r, s₂)) : view s₂ = view s₁ := by
  cases hagain with
  | failed _ stays | kept _ stays | found _ _ _ stays => exact stays
  | unwritable _ _ stays fails => exact (hhost.stays_of_error fails).trans stays
  | @written text' out' _ _ _ formats' differs' =>
    rw [hs₁] at formats'
    exfalso
    cases h with
    | kept formats stays =>
      rw [stays] at formats'
      obtain ⟨htext, hout⟩ := formats.unique formats'
      exact differs' (hout.symm.trans htext)
    | written _ formats _ stays succeeds =>
      have hstored := hhost.stored_of_ok stays formats.hasText succeeds
      exact differs' (formats.eq_of_stored hreads hstored formats')

theorem checked {r : Except Failure Unit}
    (h : Outcome host view config file true s (r, s')) : view s' = view s ∧
      (r = .ok () ↔ ∃ text out, (view s).Formats host.readSettings config file text out ∧
        (view s).read file = .ok out.toUTF8) := by
  cases h with
  | failed refused stays =>
    refine ⟨stays, nofun, ?_⟩
    rintro ⟨text, out, formats, -⟩
    exact absurd ⟨text, out, formats⟩ refused
  | @kept text _ formats stays =>
    exact ⟨stays, fun _ => ⟨text, text, formats, View.text_eq_ok_iff.1 formats.hasText⟩,
      fun _ => rfl⟩
  | found _ formats differs stays =>
    refine ⟨stays, nofun, ?_⟩
    rintro ⟨text', out', formats', hread⟩
    obtain ⟨rfl, rfl⟩ := formats.unique formats'
    have htext := View.text_eq_ok_iff.2 hread
    exact absurd (Except.ok.inj (htext.symm.trans formats.hasText)) differs
  | unwritable writes | written writes => cases writes

end Outcome

theorem outcome_perform (hhost : host.Honest view) (options : Options) (file : String)
    (check : Bool) (s : σ) :
    Outcome host view options.config file check s
      ((perform host options (.format file check)).run.run s).run := by
  rw [perform]
  have htold := tells_settings hhost options s
  cases hsettings : (view s).settings host.readSettings options.config with
  | error e =>
    rw [hsettings] at htold
    refine .of_error (Leads.bind_error htold) rfl ?_
    rintro ⟨text, out, -, settings, hsettings', -⟩
    rw [hsettings] at hsettings'
    cases hsettings'
  | ok settings =>
    rw [hsettings] at htold
    exact Leads.ends_bind_ok htold fun s₁ hs₁ => .of_format hhost _ hs₁ hsettings

/-! ## The program -/

/-- The exit code of the program. -/
def exitCode (host : Host (StateM σ)) (args : List String) (s : σ) : UInt32 :=
  ((run host args).run s).run.1

/-- Where the program leaves the machine. -/
def endState (host : Host (StateM σ)) (args : List String) (s : σ) : σ :=
  ((run host args).run s).run.2

variable {options : Options} {args : List String} {file : String} {check : Bool} {s : σ}

theorem exists_outcome (hhost : host.Honest view)
    (hrequest : host.readArguments args = .run options (.format file check)) (s : σ) :
    ∃ r s', Outcome host view options.config file check s (r, s') ∧
      (exitCode host args s = 0 ↔ r = .ok ()) ∧ view (endState host args s) = view s' := by
  have houtcome := outcome_perform hhost options file check s
  cases hperform : ((perform host options (.format file check)).run.run s).run with
  | mk r s' =>
    rw [hperform] at houtcome
    refine ⟨r, s', houtcome, ?_⟩
    rw [exitCode, endState, run, hrequest]
    dsimp only
    rw [run_bind_of_run hperform]
    cases r with
    | ok => exact ⟨⟨fun _ => rfl, fun _ => rfl⟩, rfl⟩
    | error e =>
      have hreport := hhost.report e.report s'
      rw [hreport.run_bind]
      exact ⟨⟨fun h => absurd h (show (1 : UInt32) ≠ 0 by decide), nofun⟩, hreport.looks⟩

/-- Formatting a file, all or nothing: from this state on, with these arguments. -/
structure AllOrNothing (host : Host (StateM σ)) (view : σ → View) (args : List String)
    (config : Option String) (file : String) (s : σ) : Prop where
  /-- After success the file holds the canonical text of what was in it. -/
  succeeds : exitCode host args s = 0 → ∃ text out,
    (view s).Formats host.readSettings config file text out ∧
    (view (endState host args s)).read file = .ok out.toUTF8 ∧
    (view (endState host args s) = view s ∨
      (view s).Stored file out (view (endState host args s)))
  /-- A failure leaves every file as it is. There was no canonical text, or no way to write it. -/
  fails : exitCode host args s ≠ 0 → view (endState host args s) = view s ∧
    ((¬ ∃ text out, (view s).Formats host.readSettings config file text out) ∨
      ∃ text out s' e, (view s).Formats host.readSettings config file text out ∧ view s' = view s ∧
        ((host.write file out).run s').run.1 = .error e)
  /-- After success, formatting the file again changes nothing, whether or not it fails. -/
  again : exitCode host args s = 0 → ∀ s', view s' = view (endState host args s) →
    view (endState host args s') = view s'

/-- Checking whether a file is formatted. -/
structure OnlyChecks (host : Host (StateM σ)) (view : σ → View) (args : List String)
    (config : Option String) (file : String) (s : σ) : Prop where
  /-- No file is changed. -/
  stays : view (endState host args s) = view s
  /-- The file is formatted if it holds the canonical text of what is in it, byte for byte. -/
  succeeds : exitCode host args s = 0 ↔ ∃ text out,
    (view s).Formats host.readSettings config file text out ∧
    (view s).read file = .ok out.toUTF8

/-- **Formatting is all or nothing**, and checking only looks. -/
theorem format_allOrNothing (hhost : host.Honest view)
    (hreads : Settings.ReadsDocuments host.readSettings)
    (hrequest : host.readArguments args = .run options (.format file check)) (s : σ) :
    (check = false → AllOrNothing host view args options.config file s) ∧
      (check = true → OnlyChecks host view args options.config file s) := by
  obtain ⟨r, s', houtcome, hcode, hview⟩ := exists_outcome hhost hrequest s
  constructor
  · rintro rfl
    refine ⟨fun hzero => ?_, fun hne => ?_, fun hzero s₁ hs₁ => ?_⟩
    · rw [hview]
      rw [hcode.1 hzero] at houtcome
      exact houtcome.succeeds hhost
    · rw [hview]
      cases r with
      | ok => exact absurd (hcode.2 rfl) hne
      | error e => exact houtcome.fails hhost
    · rw [hcode.1 hzero] at houtcome
      rw [hview] at hs₁
      obtain ⟨r', s₂, hagain, -, hview'⟩ := exists_outcome hhost hrequest s₁
      rw [hview']
      exact houtcome.again hhost hreads hs₁ hagain
  · rintro rfl
    obtain ⟨hstays, hiff⟩ := houtcome.checked
    exact ⟨hview.trans hstays, hcode.trans hiff⟩

/-- A machine on which the user's own settings are a program. -/
def ownSettings : Machine :=
  .start (.ofFiles [("cool/config.toml", "# width\nfn f()\x7b\x7d\n".toUTF8)])
    [("XDG_CONFIG_HOME", "")] ""

theorem formats_ownSettings : ownSettings.view.Formats Machine.host.readSettings none
    "./cool/config.toml" "# width\nfn f()\x7b\x7d\n" "fn f() \x7b\x7d\n\n" := by
  have hload : ownSettings.view.load Machine.host.readSettings "cool/config.toml" =
      .error (.content .malformed) := by
    have htext : ownSettings.view.text "cool/config.toml" = .ok "# width\nfn f()\x7b\x7d\n" :=
      View.text_eq_ok_iff.2 rfl
    have hread : Settings.ofText? "# width\nfn f()\x7b\x7d\n" = none := by decide +kernel
    have hreader : Machine.host.readSettings = Settings.ofText? := rfl
    rw [View.load, htext]
    dsimp only
    rw [Settings.parseWith, hreader, hread]
    rfl
  have hpath : ownSettings.view.userPath? = some "cool/config.toml" := rfl
  have hcontains : ownSettings.view.contains "cool/config.toml" = true := rfl
  refine ⟨View.text_eq_ok_iff.2 rfl, .standard, ?_, by decide +kernel⟩
  rw [View.settings, View.userSettings, hpath]
  dsimp only
  rw [hcontains, hload]
  rfl

/-- The user's settings, which are no settings but a program, are formatted under another name, and
before that only checked. -/
theorem format_allOrNothing_ownSettings :
    Machine.host.Honest Machine.view ∧ Settings.ReadsDocuments Machine.host.readSettings ∧
      ownSettings.view.Formats Machine.host.readSettings none "./cool/config.toml"
        "# width\nfn f()\x7b\x7d\n" "fn f() \x7b\x7d\n\n" ∧
      Machine.host.readArguments ["fmt", "./cool/config.toml"] =
        .run ⟨false, none⟩ (.format "./cool/config.toml" false) ∧
      AllOrNothing Machine.host Machine.view ["fmt", "./cool/config.toml"] none
        "./cool/config.toml" ownSettings ∧
      Machine.host.readArguments ["fmt", "--check", "./cool/config.toml"] =
        .run ⟨false, none⟩ (.format "./cool/config.toml" true) ∧
      OnlyChecks Machine.host Machine.view ["fmt", "--check", "./cool/config.toml"] none
        "./cool/config.toml" ownSettings := by
  have hformat : Machine.host.readArguments ["fmt", "./cool/config.toml"] =
      .run ⟨false, none⟩ (.format "./cool/config.toml" false) := by decide
  have hcheck : Machine.host.readArguments ["fmt", "--check", "./cool/config.toml"] =
      .run ⟨false, none⟩ (.format "./cool/config.toml" true) := by decide
  have hhost := Machine.host_honest
  have hreads : Settings.ReadsDocuments Machine.host.readSettings := Settings.readsDocuments
  exact ⟨hhost, hreads, formats_ownSettings,
    hformat, (format_allOrNothing hhost hreads hformat ownSettings).1 rfl,
    hcheck, (format_allOrNothing hhost hreads hcheck ownSettings).2 rfl⟩

end Command

end Curly
