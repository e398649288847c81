import Headend.Host.FileSystem

/-!
# The log file

The sink for the log remembers a path and keeps a file open. The two are apart: the file may have
been moved away from its path, until the path is opened again. While no file is open, what is
written is dropped.

Facts: `attach_error` and `reopen_error` (a failure leaves the sink as it was).
-/

namespace Headend.Host

open Headend.Text (Octets)

/-- The path of the log file, and the file that is open. -/
structure LogSink where
  path : Option String := none
  file : Option FileId := none
deriving DecidableEq

namespace LogSink

/-- What an operation on the sink leaves. -/
structure Done where
  result : Except Failure Unit
  sink : LogSink
  files : FileSystem

/-- Opens a path for the log, which keeps what the file holds. -/
def attach (s : LogSink) (fs : FileSystem) (path : String) : Done :=
  match fs.openForWriting path false with
  | .ok (id, fs) => ⟨.ok (), { path := some path, file := some id }, fs⟩
  | .error e => ⟨.error e, s, fs⟩

/-- Opens the path again, if there is one. -/
def reopen (s : LogSink) (fs : FileSystem) : Done :=
  match s.path with
  | some path =>
    match fs.openForWriting path false with
    | .ok (id, fs) => ⟨.ok (), { s with file := some id }, fs⟩
    | .error e => ⟨.error e, s, fs⟩
  | none => ⟨.ok (), s, fs⟩

/-- Writes to the file that is open. -/
def write (s : LogSink) (fs : FileSystem) (bs : Octets) : FileSystem :=
  match s.file with
  | some id => fs.append id bs
  | none => fs

theorem attach_error {s : LogSink} {fs : FileSystem} {path : String} {e : Failure}
    (h : (s.attach fs path).result = .error e) :
    (s.attach fs path).sink = s ∧ (s.attach fs path).files = fs := by
  unfold attach at h ⊢
  split at h <;> simp_all

theorem reopen_error {s : LogSink} {fs : FileSystem} {e : Failure}
    (h : (s.reopen fs).result = .error e) :
    (s.reopen fs).sink = s ∧ (s.reopen fs).files = fs := by
  unfold reopen at h ⊢
  split at h
  · split at h <;> simp_all
  · cases h

end LogSink

end Headend.Host
