import Curly.Proofs.Host.View

/-!
# What a command is told

The settings that hold for a command, and the text of its file, depend on nothing but the view of
the machine and the reader of documents (`tells_settings`, `tells_readSource`): the same is written
here as functions of the view. Finding them out changes no file.
-/

namespace Curly

open Command

namespace View

/-- The settings in a file. -/
def load (v : View) (reader : String → Option Settings) (path : String) :
    Except LoadError Settings :=
  match v.text path with
  | .error e => .error (.file e)
  | .ok text => (Settings.parseWith reader text).mapError .content

/-- The user's own settings file, if the environment tells where such files are. -/
def userPath? (v : View) : Option String :=
  match v.valueOf "XDG_CONFIG_HOME", v.valueOf "HOME" with
  | some dir, _ => some (below dir settingsFile)
  | none, some dir => some (below dir (".config/" ++ settingsFile))
  | none, none => (v.valueOf "APPDATA").map (below · settingsFile)

/-- The user's own settings, or the standard ones if there are none or they are broken. -/
def userSettings (v : View) (reader : String → Option Settings) : Settings :=
  match v.userPath? with
  | none => .standard
  | some path =>
    if v.contains path then (v.load reader path).toOption.getD .standard else .standard

/-- The settings that hold: those in the file that is named, which has to be good, or else the
user's own. -/
def settings (v : View) (reader : String → Option Settings) :
    Option String → Except Failure Settings
  | none => .ok (v.userSettings reader)
  | some path => (v.load reader path).mapError (.badSettings path)

end View

namespace Command

variable {σ α : Type} {view : σ → View} {host : Host (StateM σ)} {s : σ}

/-! ## Services -/

section Honest

variable (hhost : host.Honest view)
include hhost

theorem tells_note (level : Journal.Level) (entries : List Journal.Entry) (s : σ) :
    Tells view (note host level entries) s () :=
  .forM _ (fun _ => hhost.report _) s

theorem tells_noteWork (level : Journal.Level) (entries : Unit → List Journal.Entry) (s : σ) :
    Tells view (noteWork host level entries) s () := by
  unfold noteWork
  split
  · exact tells_note hhost level _ s
  · exact .pure ()

theorem tells_loadSettings (path : String) (s : σ) :
    Tells view (loadSettings host path) s ((view s).load host.readSettings path) := by
  refine (hhost.read path s).bind fun s' _ => ?_
  rw [View.load, View.text]
  cases ((view s).read path).bind Text.ofBytes <;> exact .pure _

theorem tells_userPath? (s : σ) : Tells view (userPath? host) s (view s).userPath? := by
  refine (hhost.valueOf _ s).bind fun s₁ h₁ => ?_
  rw [View.userPath?]
  cases (view s).valueOf "XDG_CONFIG_HOME" with
  | some dir => exact .pure _
  | none =>
    refine (hhost.valueOf _ s₁).bind fun s₂ h₂ => ?_
    rw [h₁]
    cases (view s).valueOf "HOME" with
    | some dir => exact .pure _
    | none =>
      refine (hhost.valueOf _ s₂).bind fun s₃ _ => ?_
      rw [h₂, h₁]
      exact .pure _

theorem tells_userSettings (s : σ) :
    Tells view (userSettings host) s ((view s).userSettings host.readSettings) := by
  refine (tells_userPath? hhost s).bind fun s₁ h₁ => ?_
  rw [View.userSettings]
  cases (view s).userPath? with
  | none => exact .pure _
  | some path =>
    refine (hhost.contains path s₁).bind fun s₂ h₂ => ?_
    rw [h₁]
    dsimp only
    split
    · refine (tells_loadSettings hhost path s₂).bind fun s₃ h₃ => ?_
      rw [h₂, h₁]
      cases (view s).load host.readSettings path with
      | ok settings => exact .pure _
      | error e => exact (hhost.report _ s₃).bind fun _ _ => .pure _
    · exact .pure _

theorem tells_settings (options : Options) (s : σ) :
    Tells view (settings host options).run s
      ((view s).settings host.readSettings options.config) := by
  rw [settings]
  cases options.config with
  | none => exact Leads.lift (tells_userSettings hhost s)
  | some path =>
    refine Tells.bind_ok (Leads.lift (tells_loadSettings hhost path s)) fun s₁ _ => ?_
    rw [View.settings]
    cases (view s).load host.readSettings path <;> exact .pure _

theorem tells_readSource (path : String) (s : σ) : Tells view (readSource host path).run s
    (((view s).text path).mapError (.unreadable path) |>.map (Source.mk path)) := by
  refine Tells.bind_ok (Leads.lift (hhost.read path s)) fun s₁ _ => ?_
  rw [View.text]
  cases ((view s).read path).bind Text.ofBytes <;> exact .pure _

end Honest

theorem tells_orReject {src : Source} (result : Except SourceError α) (s : σ) :
    Tells view (orReject src result : Work (StateM σ) α).run s
      (result.mapError fun e => .rejected (e.render src)) := by
  cases result <;> exact .pure _

end Command

end Curly
