import Curly.Command.Work

/-!
# Where a computation leads

Of a computation on a machine it is often enough to know what it gives and what can be seen of the
machine afterwards. `Leads look x s a after` says that `x`, from the state `s` on, gives `a` and
leaves the machine so that it looks like `after`. Computations are followed step by step
(`Leads.bind`), those that may fail as well (`Leads.bind_ok`, `Leads.bind_error`), and loops turn by
turn (`Leads.repeatM_step`, `Leads.repeatM_stop`). Where more is to be found out about the state in
between than how it looks, it is named first (`Leads.exists_next`, `Leads.exists_next_ok`).
-/

namespace Curly

variable {σ α β ω ε : Type} {look : σ → ω} {s : σ} {after after' : ω}

/-- From this state on `x` gives this result, and the state that it leaves looks like this. -/
structure Leads (look : σ → ω) (x : StateM σ α) (s : σ) (a : α) (after : ω) : Prop where
  result : (x.run s).run.1 = a
  looks : look (x.run s).run.2 = after

theorem run_bind_of_run {y : StateM σ α} {k : α → StateM σ β} {a : α} {s' : σ}
    (h : (y.run s).run = (a, s')) : ((y >>= k).run s).run = ((k a).run s').run := by
  show ((k (y.run s).run.1).run (y.run s).run.2).run = _
  rw [h]

theorem run_lift_bind (y : StateM σ α) (g : α → ExceptT ε (StateM σ) β) :
    (((liftM y : ExceptT ε (StateM σ) α) >>= g).run.run s).run =
      ((g (y.run s).run.1).run.run (y.run s).run.2).run := rfl

namespace Leads

section State

variable {x : StateM σ α} {g : α → StateM σ β} {a : α} {b : β}

theorem pure (a : α) : Leads look (Pure.pure a) s a (look s) := ⟨rfl, rfl⟩

/-- A computation that does nothing, in a state that looks like this. -/
theorem pure_of_eq (h : look s = after) : Leads look (Pure.pure a) s a after := ⟨rfl, h⟩

/-- What comes after `x` goes on from the state that `x` leaves. -/
theorem run_bind (hx : Leads look x s a after) :
    ((x >>= g).run s).run = ((g a).run (x.run s).run.2).run :=
  run_bind_of_run (Prod.ext hx.result rfl)

/-- The state that `x` leaves, from which all that comes after `x` goes on. -/
theorem exists_next (hx : Leads look x s a after) : ∃ s₁, look s₁ = after ∧
    ∀ {β : Type} {g : α → StateM σ β} {b : β} {after' : ω},
      Leads look (g a) s₁ b after' → Leads look (x >>= g) s b after' := by
  refine ⟨_, hx.looks, fun hlater => ⟨?_, ?_⟩⟩
  · rw [hx.run_bind, hlater.result]
  · rw [hx.run_bind, hlater.looks]

theorem bind (hx : Leads look x s a after)
    (hg : ∀ s', look s' = after → Leads look (g a) s' b after') :
    Leads look (x >>= g) s b after' := by
  obtain ⟨s₁, hs₁, hnext⟩ := hx.exists_next
  exact hnext (hg s₁ hs₁)

theorem forM_cons {act : α → StateM σ Unit} {as : List α}
    (hx : Leads look (act a) s () after)
    (hlater : ∀ s', look s' = after → Leads look (as.forM act) s' () after') :
    Leads look ((a :: as).forM act) s () after' := hx.bind hlater

end State

section Except

variable {x : ExceptT ε (StateM σ) α} {g : α → ExceptT ε (StateM σ) β} {a : α} {e : ε}
  {r : Except ε β}

theorem exists_next_ok (hx : Leads look x.run s (.ok a) after) : ∃ s₁, look s₁ = after ∧
    ∀ {β : Type} {g : α → ExceptT ε (StateM σ) β} {r : Except ε β} {after' : ω},
      Leads look (g a).run s₁ r after' → Leads look (x >>= g).run s r after' := by
  obtain ⟨s₁, hs₁, hnext⟩ := hx.exists_next
  refine ⟨s₁, hs₁, fun hlater => ?_⟩
  rw [ExceptT.run_bind]
  exact hnext hlater

theorem bind_ok (hx : Leads look x.run s (.ok a) after)
    (hg : ∀ s', look s' = after → Leads look (g a).run s' r after') :
    Leads look (x >>= g).run s r after' := by
  obtain ⟨s₁, hs₁, hnext⟩ := hx.exists_next_ok
  exact hnext (hg s₁ hs₁)

theorem bind_error (hx : Leads look x.run s (.error e) after) :
    Leads look (x >>= g).run s (.error e) after := by
  rw [ExceptT.run_bind]
  exact hx.bind fun _ => pure_of_eq

theorem lift {y : StateM σ α} (hy : Leads look y s a after) :
    Leads look (ExceptT.lift y : ExceptT ε (StateM σ) α).run s (.ok a) after := by
  rw [ExceptT.run_lift, map_eq_pure_bind]
  exact hy.bind fun _ => pure_of_eq

/-- The same of a computation that cannot fail, before others that can. -/
theorem exists_next_lift {y : StateM σ α} (hy : Leads look y s a after) : ∃ s₁, look s₁ = after ∧
    ∀ {ε β : Type} {g : α → ExceptT ε (StateM σ) β} {r : Except ε β} {after' : ω},
      Leads look (g a).run s₁ r after' → Leads look (ExceptT.lift y >>= g).run s r after' := by
  obtain ⟨s₁, hs₁, hnext⟩ := hy.exists_next
  exact ⟨s₁, hs₁, fun hlater => hnext hlater⟩

/-- What the rest ends in from all states that look alike, the whole ends in. -/
theorem ends_bind_ok {Ends : Except ε β × σ → Prop} (hx : Leads look x.run s (.ok a) after)
    (hg : ∀ s', look s' = after → Ends ((g a).run.run s').run) :
    Ends ((x >>= g).run.run s).run := by
  have hrun : ((x >>= g).run.run s).run = ((g a).run.run (x.run.run s).run.2).run := by
    rw [ExceptT.run_bind]
    exact hx.run_bind
  rw [hrun]
  exact hg _ hx.looks

end Except

/-! ## Loops -/

section Loop

variable {step : α → ExceptT ε (StateM σ) (α ⊕ Unit)} {a a' : α}

/-- A loop does one step, and goes on if the step tells it to. -/
theorem repeatM_eq [Nonempty σ] (step : α → ExceptT ε (StateM σ) (α ⊕ Unit)) (a : α) :
    repeatM step a = step a >>= Sum.elim (repeatM step) Pure.pure := by
  rw [repeatM_eq_of_monadTail]
  refine bind_congr fun next => ?_
  cases next <;> rfl

theorem repeatM_stop (hx : Leads look (step a).run s (.ok (.inr ())) after) :
    Leads look (repeatM step a).run s (.ok ()) after := by
  have : Nonempty σ := ⟨s⟩
  rw [repeatM_eq]
  exact hx.bind_ok fun _ => pure_of_eq

/-- The state from which the rest of a loop goes on. -/
theorem repeatM_step (hx : Leads look (step a).run s (.ok (.inl a')) after) :
    ∃ s₁, look s₁ = after ∧ ∀ {r : Except ε Unit} {after' : ω},
      Leads look (repeatM step a').run s₁ r after' →
      Leads look (repeatM step a).run s r after' := by
  have : Nonempty σ := ⟨s⟩
  obtain ⟨s₁, hs₁, hnext⟩ := hx.exists_next_ok
  refine ⟨s₁, hs₁, fun hlater => ?_⟩
  rw [repeatM_eq]
  exact hnext hlater

end Loop

end Leads

end Curly
