import Curly.Machine.Basic
import Curly.Proofs.Host.View

/-!
# Files of a simulated machine

Writing to a file that is there changes what stands at its place and nowhere else
(`Directory.find_replace`). Paths lead where they led, since only directories are passed through.
So the host of a simulated machine is honest (`Machine.host_honest`).
-/

namespace Curly

namespace Directory

variable {d d' : Directory} {path : String} {bytes old : ByteArray} {there here : List String}

/-- The same with other bytes, if it is a file. -/
def Found.map (f : ByteArray → ByteArray) : Found → Found
  | .file bytes => .file (f bytes)
  | .directory => .directory
  | .nothing => .nothing

/-- The directory with other bytes in the file at a place. -/
def replace (d : Directory) (there : List String) (bytes : ByteArray) : Directory :=
  ⟨d.files.map fun f => if f.1 = there then (there, bytes) else f⟩

/-! ## What stands where -/

theorem lookup_replace :
    (d.replace there bytes).files.lookup here =
      (d.files.lookup here).map fun old => if here = there then bytes else old := by
  rw [replace]
  induction d.files with
  | nil => rfl
  | cons f files ih =>
    obtain ⟨place, content⟩ := f
    have hhead : (if place = there then (there, bytes) else (place, content)) =
        (place, if place = there then bytes else content) := by
      split <;> simp [*]
    rw [List.map_cons, hhead, List.lookup_cons, List.lookup_cons]
    cases hplace : here == place with
    | true => rw [Option.map_some, eq_of_beq hplace]
    | false => exact ih

theorem any_replace (test : List String → Bool) :
    (d.replace there bytes).files.any (fun f => test f.1) = d.files.any fun f => test f.1 := by
  rw [replace, List.any_map]
  congr 1
  funext f
  by_cases hf : f.1 = there
  · simp [hf]
  · simp [hf]

/-- What stands at a place is what stood there, but for the bytes of the one file. -/
theorem find_replace :
    (d.replace there bytes).find here =
      (d.find here).map fun old => if here = there then bytes else old := by
  rw [find, find, lookup_replace, any_replace here.isPrefixOf]
  cases d.files.lookup here with
  | some => rfl
  | none =>
    rw [Option.map_none]
    dsimp only
    split <;> rfl

/-! ## Where paths lead -/

theorem walk_replace (parts : List String) :
    (d.replace there bytes).walk here parts = d.walk here parts := by
  induction parts generalizing here with
  | nil => rfl
  | cons part rest ih =>
    rw [walk, walk, find_replace]
    cases d.find here with
    | directory => exact congrArg (step here part >>= ·) (funext fun _ => ih)
    | file | nothing => rfl

theorem resolve_replace (path : String) (parts : List String) :
    (d.replace there bytes).resolve path parts = d.resolve path parts := by
  rw [resolve, resolve, walk_replace]

theorem contains_replace (path : String) :
    (d.replace there bytes).contains path = d.contains path := by
  rw [contains, contains, resolve_replace]
  cases d.resolve path (parts path) with
  | error => rfl
  | ok here =>
    dsimp only
    rw [find_replace]
    cases d.find here <;> rfl

/-! ## Reading and writing -/

/-- A file that is read stands where its path leads, and the path does not end in a slash. -/
theorem read_eq_ok_iff : d.read path = .ok bytes ↔
    ∃ here, d.resolve path (parts path) = .ok here ∧ d.find here = .file bytes ∧
      endsInSlash path = false := by
  rw [read]
  cases d.resolve path (parts path) with
  | error e => simp [bind, Except.bind]
  | ok here =>
    cases hfind : d.find here with
    | file content =>
      cases endsInSlash path <;>
        simp [bind, Except.bind, hfind, throw, throwThe, MonadExceptOf.throw, pure, Except.pure]
    | directory | nothing =>
      simp [bind, Except.bind, hfind, throw, throwThe, MonadExceptOf.throw]

theorem read_replace_of_eq (h : d.resolve path (parts path) = .ok there) :
    (d.replace there bytes).read path = (d.read path).map fun _ => bytes := by
  rw [read, read, resolve_replace, h]
  simp only [bind, Except.bind, find_replace, if_true]
  cases d.find there with
  | file => cases endsInSlash path <;> rfl
  | directory | nothing => rfl

theorem read_replace_of_ne (h : d.resolve path (parts path) ≠ .ok there) :
    (d.replace there bytes).read path = d.read path := by
  rw [read, read, resolve_replace]
  cases hplace : d.resolve path (parts path) with
  | error e => rfl
  | ok here =>
    have hhere : here ≠ there := by
      rintro rfl
      exact h hplace
    simp only [bind, Except.bind, find_replace, if_neg hhere]
    cases d.find here <;> rfl

/-- Paths that lead to one place are read as one file. -/
theorem read_unique {other : String} (hother : d.read other = .ok bytes)
    (hread : d.read path = .ok old) (hplace : d.resolve other (parts other) = .ok there)
    (hthere : d.resolve path (parts path) = .ok there) : bytes = old := by
  obtain ⟨here, hhere, hfind, -⟩ := read_eq_ok_iff.1 hother
  obtain ⟨here', hhere', hfind', -⟩ := read_eq_ok_iff.1 hread
  obtain rfl := Except.ok.inj (hhere.symm.trans hplace)
  obtain rfl := Except.ok.inj (hhere'.symm.trans hthere)
  exact Found.file.inj (hfind.symm.trans hfind')

/-- A file that can be read is written where it stands. -/
theorem write_of_read (hread : d.read path = .ok old) (bytes : ByteArray) :
    ∃ there, d.resolve path (parts path) = .ok there ∧
      d.write path bytes = .ok (d.replace there bytes) := by
  obtain ⟨there, hthere, hfind, hslash⟩ := read_eq_ok_iff.1 hread
  refine ⟨there, hthere, ?_⟩
  have htarget : d.target path = .ok there := by
    rw [target, hslash]
    exact hthere
  rw [write, htarget]
  simp only [bind, Except.bind, hfind]
  rfl

end Directory

/-! ## The machine -/

namespace Machine

/-- What a simulated machine tells. -/
def view (machine : Machine) : View where
  valueOf name := machine.environment.lookup name
  read := machine.directory.read
  contains := machine.directory.contains

open Directory in
/-- The view after a file that could be read has been written. -/
theorem stored_view {machine : Machine} {path text : String} {old : ByteArray}
    {there : List String} (hread : machine.directory.read path = .ok old)
    (hthere : machine.directory.resolve path (parts path) = .ok there) :
    machine.view.Stored path text
      { machine with directory := machine.directory.replace there text.toUTF8 }.view := by
  constructor
  · rfl
  · exact funext contains_replace
  · refine (read_replace_of_eq hthere).trans ?_
    rw [hread]
    rfl
  · intro other
    by_cases hresolve : machine.directory.resolve other (parts other) = .ok there
    · have hother : (machine.directory.replace there text.toUTF8).read other = _ :=
        read_replace_of_eq hresolve
      cases hread' : machine.directory.read other with
      | error e =>
        rw [hread'] at hother
        exact .inl (hother.trans hread'.symm)
      | ok content =>
        rw [hread'] at hother
        obtain rfl := read_unique hread' hread hresolve hthere
        exact .inr ⟨hread'.trans hread.symm, hother⟩
    · exact .inl (read_replace_of_ne hresolve)

theorem run_write (path text : String) (machine : Machine) :
    ((host.write path text).run machine).run =
      match machine.directory.write path text.toUTF8 with
      | .error e => (.error e, machine)
      | .ok directory => (.ok (), { machine with directory := directory }) := by
  show (StateT.run (match machine.directory.write path text.toUTF8 with
    | .error e => pure (.error e)
    | .ok directory => do
      modify fun machine => { machine with directory := directory }
      return .ok () : StateM Machine (Except FileError Unit)) machine).run = _
  cases machine.directory.write path text.toUTF8 <;> rfl

/-- **The host of a simulated machine is honest.** -/
theorem host_honest : Machine.host.Honest Machine.view := by
  constructor
  · exact fun _ _ => ⟨rfl, rfl⟩
  · exact fun _ _ => ⟨rfl, rfl⟩
  · exact fun _ _ => ⟨rfl, rfl⟩
  · exact fun _ _ => ⟨rfl, rfl⟩
  · intro path text machine hfailed
    rw [run_write] at hfailed ⊢
    cases hwrite : machine.directory.write path text.toUTF8 with
    | error e => rfl
    | ok directory =>
      rw [hwrite] at hfailed
      exact absurd rfl hfailed
  · rintro path text machine - ⟨old, hread⟩
    obtain ⟨there, hthere, hwrite⟩ := Directory.write_of_read hread text.toUTF8
    rw [run_write, hwrite]
    exact stored_view hread hthere

end Machine

end Curly
