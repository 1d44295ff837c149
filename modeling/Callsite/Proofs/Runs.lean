import Callsite.FileTree
import Callsite.Proofs.FileNames

/-!
# What a run comes to

A run over a file store with states starts from diagnostics and a state, and comes to a result or an
abort, with the diagnostics and the state that it leaves. Some stores change by writing only, and any
store can be made to keep what was written.
-/

namespace Callsite

variable {σ : Type}

namespace Run

/-- What a run comes to from given diagnostics and a state of the file store. -/
def exec (x : Run (StateM σ) α) (d : Diagnostics) (s : σ) : (Except Abort α × Diagnostics) × σ :=
  (x.run.run d).run s

theorem exec_bind_ok {x : Run (StateM σ) α} (h : x.exec d s = ((.ok a, d'), s'))
    (f : α → Run (StateM σ) β) : (x >>= f).exec d s = (f a).exec d' s' := by
  simp only [exec, ExceptT.run, StateT.run] at h
  simp only [exec, bind, ExceptT.bind, ExceptT.mk, ExceptT.run, StateT.bind, StateT.run, h]
  rfl

theorem exec_bind_error {x : Run (StateM σ) α} (h : x.exec d s = ((.error cause, d'), s'))
    (f : α → Run (StateM σ) β) : (x >>= f).exec d s = ((.error cause, d'), s') := by
  simp only [exec, ExceptT.run, StateT.run] at h
  simp only [exec, bind, ExceptT.bind, ExceptT.mk, ExceptT.run, StateT.bind, StateT.run, h]
  rfl

theorem exec_log (level : Level) (message : Text) (d : Diagnostics) (s : σ) :
    exec (log level message) d s = ((.ok (), d.log level message), s) := rfl

theorem exec_liftM (x : StateM σ α) (d : Diagnostics) (s : σ) :
    exec (liftM x) d s = ((.ok (x.run s).1, d), (x.run s).2) := rfl

theorem exec_ofStep (step : Diagnostics → Except Abort α × Diagnostics) (d : Diagnostics) (s : σ) :
    exec (ofStep step) d s = (step d, s) := rfl

theorem exec_modifyGet (step : Diagnostics → α × Diagnostics) (d : Diagnostics) (s : σ) :
    exec (modifyGet step) d s = ((.ok (step d).1, (step d).2), s) := rfl

variable [FileStore (StateM σ)]

theorem exec_withFile (h : FileName.check path = .ok ()) (action : Text → StateM σ α)
    (d : Diagnostics) (s : σ) :
    exec (withFile path action) d s = ((.ok ((action path).run s).1, d), ((action path).run s).2) := by
  rw [withFile, h]
  rfl

theorem exec_withFile_error (h : FileName.check path = .error fault) (action : Text → StateM σ α)
    (d : Diagnostics) (s : σ) :
    exec (withFile path action) d s = ((.error (.path fault), d), s) := by
  rw [withFile, h]
  rfl

end Run

-- ---------------------------------------------------------------------------
-- Stores
-- ---------------------------------------------------------------------------

/-- What a store answers that is asked to write a file, and its state then. -/
def FileStore.written [FileStore (StateM σ)] (path : Text) (content : List UInt8) (s : σ) :
    Except SystemError Unit × σ := (FileStore.write path content : StateM σ _).run s

/-- A store that changes by writing only. -/
class FileStore.PureReads (σ : Type) [FileStore (StateM σ)] : Prop where
  read (path : Text) (s : σ) : ((FileStore.read path : StateM σ _).run s).2 = s
  list (path : Text) (s : σ) : ((FileStore.list path : StateM σ _).run s).2 = s
  workingDirectory (s : σ) : ((FileStore.workingDirectory : StateM σ _).run s).2 = s

instance : FileStore.PureReads FileTree where
  read _ _ := rfl
  list _ _ := rfl
  workingDirectory _ := rfl

/-- A store, and what it was asked to write. -/
structure Traced (σ : Type) where
  state : σ
  writes : List (Text × List UInt8) := []

namespace Traced

/-- Does what leaves the trace as it is. -/
def ask (x : StateM σ α) : StateM (Traced σ) α :=
  modifyGet fun t => ((x.run t.state).1, { t with state := (x.run t.state).2 })

variable [FileStore (StateM σ)]

instance : FileStore (StateM (Traced σ)) where
  read path := ask (FileStore.read path)
  list path := ask (FileStore.list path)
  write path content := do
    modify fun t => { t with writes := t.writes ++ [(path, content)] }
    ask (FileStore.write path content)
  workingDirectory := ask FileStore.workingDirectory

theorem written_eq (path : Text) (content : List UInt8) (t : Traced σ) :
    FileStore.written path content t =
      ((FileStore.written path content t.state).1,
        { state := (FileStore.written path content t.state).2
          writes := t.writes ++ [(path, content)] }) := rfl

instance [FileStore.PureReads σ] : FileStore.PureReads (Traced σ) where
  read path t := congrArg (Traced.mk · t.writes) (FileStore.PureReads.read path t.state)
  list path t := congrArg (Traced.mk · t.writes) (FileStore.PureReads.list path t.state)
  workingDirectory t := congrArg (Traced.mk · t.writes) (FileStore.PureReads.workingDirectory t.state)

end Traced

-- ---------------------------------------------------------------------------
-- Writing
-- ---------------------------------------------------------------------------

namespace Report

variable [FileStore (StateM σ)] {path : Path}

/-- The store is asked once, and what it answers is no failure of a unit. -/
theorem exec_put (h : FileName.Fits path.render) (content : List UInt8) (d : Diagnostics) (s : σ) :
    ∃ d', (put path content).exec d s =
        ((.ok (FileStore.written path.render content s).1.isOk, d'),
          (FileStore.written path.render content s).2) ∧
      d'.failures = d.failures := by
  have hfile := Run.exec_withFile (FileName.check_eq_ok.mpr h) (FileStore.write · content) d s
  rw [put, Run.exec_bind_ok hfile, FileStore.written]
  cases ((FileStore.write path.render content : StateM σ _).run s).1 with
  | ok _ => exact ⟨d, rfl, rfl⟩
  | error error => exact ⟨_, rfl, rfl⟩

/-- A report is written by asking the store once. -/
theorem exec_write [FileStore.PureReads σ] (h : FileName.Fits path.render) (findings : List Finding)
    (format : Format) (d : Diagnostics) (s : σ) :
    ∃ d', (write findings path format).exec d s =
        ((.ok (FileStore.written path.render (encode format findings) s).1.isOk, d'),
          (FileStore.written path.render (encode format findings) s).2) ∧
      d'.failures = d.failures := by
  obtain ⟨d', hput, hfailures⟩ := exec_put h (encode format findings) d s
  rw [write, Run.exec_bind_ok hput]
  cases (FileStore.written path.render (encode format findings) s).1 with
  | ok _ =>
    have hhere := Run.exec_liftM (FileStore.workingDirectory : StateM σ Text) d'
      (FileStore.written path.render (encode format findings) s).2
    rw [FileStore.PureReads.workingDirectory] at hhere
    simp only [Except.isOk, Except.toBool, if_true, Run.exec_bind_ok hhere]
    exact ⟨_, rfl, hfailures⟩
  | error _ => exact ⟨d', rfl, hfailures⟩

end Report

end Callsite
