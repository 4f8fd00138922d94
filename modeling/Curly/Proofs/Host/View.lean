import Curly.Proofs.Host.Leads

/-!
# What a machine tells

All that a program finds out about the files and the environment of a machine is its `View`.
`Tells view x s a` says that `x` finds out `a` and leaves the view as it is. A host is honest
(`Host.Honest`) if its services tell the view, and if a file that is written holds the text after
it, by whatever other names it may be read, while a write that fails does nothing.
-/

namespace Curly

namespace Text

theorem ofBytes_toUTF8 (s : String) : ofBytes s.toUTF8 = .ok s := by
  rw [ofBytes, String.fromUTF8?, String.toUTF8_eq_toByteArray, dif_pos s.isValidUTF8]
  rfl

theorem eq_toUTF8_of_ofBytes {bytes : ByteArray} {s : String} (h : ofBytes bytes = .ok s) :
    bytes = s.toUTF8 := by
  rw [ofBytes, String.fromUTF8?] at h
  split at h
  · next t ht =>
    obtain rfl := Except.ok.inj h
    split at ht
    · obtain rfl := Option.some.inj ht
      rfl
    · cases ht
  · cases h

end Text

/-! ## Views -/

/-- What can be found out about the environment and the files of a machine. -/
structure View where
  valueOf : String → Option String
  read : String → Except FileError ByteArray
  contains : String → Bool

namespace View

/-- The text of a file. -/
def text (v : View) (path : String) : Except FileError String := (v.read path).bind Text.ofBytes

/-- The view after a text has been stored in a file that was there. What has changed under other
names as well was the same file before. -/
structure Stored (v : View) (path text : String) (v' : View) : Prop where
  valueOf : v'.valueOf = v.valueOf
  contains : v'.contains = v.contains
  stored : v'.read path = .ok text.toUTF8
  others : ∀ other, v'.read other = v.read other ∨
    v.read other = v.read path ∧ v'.read other = .ok text.toUTF8

variable {v : View} {path text : String}

theorem text_eq_ok_iff : v.text path = .ok text ↔ v.read path = .ok text.toUTF8 := by
  unfold View.text
  cases v.read path with
  | error e => exact ⟨nofun, nofun⟩
  | ok bytes =>
    rw [Except.bind, Except.ok.injEq]
    constructor
    · exact Text.eq_toUTF8_of_ofBytes
    · rintro rfl
      exact Text.ofBytes_toUTF8 text

end View

/-! ## Telling the view -/

section Tells

variable {σ α β : Type} {view : σ → View} {s : σ} {x : StateM σ α} {g : α → StateM σ β} {a : α}
  {b : β}

/-- From this state on `x` gives this result and leaves the view as it is. -/
abbrev Tells (view : σ → View) (x : StateM σ α) (s : σ) (a : α) : Prop := Leads view x s a (view s)

namespace Tells

theorem bind (hx : Tells view x s a)
    (hg : ∀ s', view s' = view s → Tells view (g a) s' b) : Tells view (x >>= g) s b :=
  Leads.bind hx fun s' h => h ▸ hg s' h

theorem bind_ok {ε : Type} {x : ExceptT ε (StateM σ) α} {g : α → ExceptT ε (StateM σ) β}
    {r : Except ε β} (hx : Tells view x.run s (.ok a))
    (hg : ∀ s', view s' = view s → Tells view (g a).run s' r) : Tells view (x >>= g).run s r :=
  Leads.bind_ok hx fun s' h => h ▸ hg s' h

theorem forM {act : α → StateM σ Unit} (xs : List α)
    (hact : ∀ a s, Tells view (act a) s ()) (s : σ) : Tells view (xs.forM act) s () := by
  induction xs generalizing s with
  | nil => exact .pure ()
  | cons a xs ih => exact (hact a s).bind fun s' _ => ih s'

end Tells

end Tells

/-! ## Hosts -/

/-- The host tells the view, does nothing where it fails to write, and else stores the text. Of
the files that it writes only those are spoken of that could be read before. -/
structure Host.Honest {σ : Type} (host : Host (StateM σ)) (view : σ → View) : Prop where
  valueOf : ∀ name s, Tells view (host.valueOf name) s ((view s).valueOf name)
  read : ∀ path s, Tells view (host.read path) s ((view s).read path)
  contains : ∀ path s, Tells view (host.contains path) s ((view s).contains path)
  report : ∀ message s, Tells view (host.report message) s ()
  refused : ∀ path text s, ((host.write path text).run s).run.1 ≠ .ok () →
    view ((host.write path text).run s).run.2 = view s
  stored : ∀ path text s, ((host.write path text).run s).run.1 = .ok () →
    (∃ bytes, (view s).read path = .ok bytes) →
    (view s).Stored path text (view ((host.write path text).run s).run.2)

namespace Host.Honest

variable {σ : Type} {host : Host (StateM σ)} {view : σ → View} {s s₁ s' : σ} {path text : String}

theorem stays_of_error {e : FileError} (h : host.Honest view)
    (hwrite : ((host.write path text).run s).run = (.error e, s')) : view s' = view s := by
  have hrefused := h.refused path text s
  rw [hwrite] at hrefused
  exact hrefused nofun

theorem stored_of_ok {old : String} (h : host.Honest view) (hview : view s₁ = view s)
    (hold : (view s).text path = .ok old)
    (hwrite : ((host.write path text).run s₁).run = (.ok (), s')) :
    (view s).Stored path text (view s') := by
  have hstored := h.stored path text s₁
  rw [hwrite, hview] at hstored
  exact hstored rfl ⟨_, View.text_eq_ok_iff.1 hold⟩

end Host.Honest

end Curly
