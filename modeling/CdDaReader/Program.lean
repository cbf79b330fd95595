import CdDaReader.Reader.ReadToc

/-!
# Programs over a reader

The programs under `examples/` hold an open reader, an output directory and a
terminal. They call the reader, save files and print, and end with the first
error that they do not look at. A file that cannot be written may be left
behind cut off.
-/

namespace CdDaReader

open Rust

/-- `Box<dyn std::error::Error>`, by what `?` made it from. -/
inductive ProgramError
  | reader (err : CdReaderError)
  | write (err : IoError)
  | text (message : String)
  deriving DecidableEq, Repr

/-- The files of the output directory, in the order of their last writes. -/
abbrev Files := List (String × Bytes)

structure ProgramState (τ : Type) where
  history : History
  files : Files
  printed : List τ

abbrev Program (τ α : Type) := Exec (ProgramState τ) ProgramError α

-- ---------------------------------------------------------------------------
-- Files
-- ---------------------------------------------------------------------------

/-- A write fails before it creates the file, or with some of the bytes
written. -/
structure WriteFailure where
  err : IoError
  left : Option Nat

/-- How a write fails, if it does. -/
abbrev Disk := Files → String → Bytes → Option WriteFailure

/-- The one file of a name has these bytes. -/
def Files.put (files : Files) (name : String) (bytes : Bytes) : Files :=
  files.filter (fun file => file.1 != name) ++ [(name, bytes)]

/-- The files after a write that failed. -/
def WriteFailure.leave (failure : WriteFailure) (files : Files) (name : String) (bytes : Bytes) :
    Files :=
  match failure.left with
  | some n => files.put name (bytes.take n)
  | none => files

theorem Files.put_new {files : Files} (h : name ∉ files.map Prod.fst) (bytes : Bytes) :
    files.put name bytes = files ++ [(name, bytes)] := by
  unfold put
  rw [List.filter_eq_self.mpr]
  intro file hmem
  rw [bne_iff_ne]
  rintro rfl
  exact h (List.mem_map_of_mem hmem)

theorem WriteFailure.leave_new (failure : WriteFailure) {files : Files}
    (h : name ∉ files.map Prod.fst) (bytes : Bytes) :
    failure.leave files name bytes = files ∨
      ∃ cut, cut <+: bytes ∧ failure.leave files name bytes = files ++ [(name, cut)] := by
  unfold leave
  cases failure.left with
  | none => exact .inl rfl
  | some n => exact .inr ⟨_, List.take_prefix n bytes, files.put_new h _⟩

-- ---------------------------------------------------------------------------
-- What a program does
-- ---------------------------------------------------------------------------

namespace Program

variable {τ α : Type}

/-- A call of the reader whose result the program matches on. -/
def attempt (x : Run α) : Program τ (Except CdReaderError α) :=
  x.attempt.zoom ProgramState.history fun s history => { s with history }

/-- `?` on a call of the reader. -/
def call (x : Run α) : Program τ α :=
  (x.zoom ProgramState.history fun s history => { s with history }).mapErr ProgramError.reader

def print (line : τ) : Program τ Unit := modify fun s => { s with printed := s.printed ++ [line] }

/-- `std::fs::write`, in the output directory. -/
def write (disk : Disk) (name : String) (bytes : Bytes) : Program τ Unit := do
  match disk (← get).files name bytes with
  | none => modify fun s => { s with files := s.files.put name bytes }
  | some failure =>
    modify fun s => { s with files := failure.leave s.files name bytes }
    fail (ProgramError.write failure.err)

theorem attempt_exec {x : Run α} {s : ProgramState τ}
    (h : x.exec s.history = (ofResult result, h')) :
    (attempt x).exec s = (.ok result, { s with history := h' }) :=
  exec_zoom (exec_attempt h)

theorem call_exec {x : Run α} {s : ProgramState τ}
    (h : x.exec s.history = (ofResult result, h')) :
    (call x).exec s = (ofResult (result.mapError ProgramError.reader), { s with history := h' }) :=
  exec_mapErr (exec_zoom h)

@[simp] theorem print_exec (line : τ) (s : ProgramState τ) :
    (print line).exec s = (.ok (), { s with printed := s.printed ++ [line] }) := rfl

theorem write_exec {s : ProgramState τ} (h : disk s.files name bytes = none) :
    (write disk name bytes).exec s = (.ok (), { s with files := s.files.put name bytes }) := by
  unfold write
  rw [exec_bind_ok (exec_get s), h]
  rfl

theorem write_fails {s : ProgramState τ} {failure : WriteFailure}
    (h : disk s.files name bytes = some failure) :
    (write disk name bytes).exec s = (.error (.error (.write failure.err)),
      { s with files := failure.leave s.files name bytes }) := by
  unfold write
  rw [exec_bind_ok (exec_get s), h]
  rfl

end Program

-- ---------------------------------------------------------------------------
-- The table
-- ---------------------------------------------------------------------------

/-- The state once the table was read. -/
def ProgramState.tableRead {τ : Type} (reader : CdReader) (h : History) : ProgramState τ :=
  ⟨h ++ [.command .readToc (reader.drive h .readToc)], [], []⟩

/-- A program that begins by reading the table gets the disc's, or ends. -/
theorem Program.readToc_exec (τ : Type) {medium : Medium} (host : Host) {reader : CdReader}
    (hin : medium.In reader.drive) (h : History) :
    (∃ err, (Program.call (reader.readToc host)).exec ⟨h, [], []⟩ =
        (.error (.error (.reader err)), (.tableRead reader h : ProgramState τ)) ∧
      medium.ReadsTable (reader.drive h .readToc) (.error err)) ∨
    (Program.call (reader.readToc host)).exec ⟨h, [], []⟩ =
        (.ok medium.layout.toc, (.tableRead reader h : ProgramState τ)) ∧
      medium.ReadsTable (reader.drive h .readToc) (.ok medium.layout.toc) := by
  obtain ⟨table, hread, htable⟩ := CdReader.readToc_medium host hin h
  have hcall := Program.call_exec (s := (⟨h, [], []⟩ : ProgramState τ)) hread
  cases table with
  | error err => exact .inl ⟨err, hcall, htable⟩
  | ok toc =>
    obtain rfl := htable.toc_eq
    exact .inr ⟨hcall, htable⟩

end CdDaReader
