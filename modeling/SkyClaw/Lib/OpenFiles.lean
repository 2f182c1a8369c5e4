import Mathlib.Data.List.Basic

/-!
# Files that are open

A directory names files, and a handle stays with the file that it was opened on: another `open` may
empty it, another writer may change it, and the name may come to stand for another file.
-/

/-- A directory, and the contents of the files. -/
structure OpenFiles (κ : Type*) where
  entries : κ → Option Nat
  contents : Nat → List UInt8
  /-- the file that is created next -/
  fresh : Nat
  entries_lt : ∀ name file, entries name = some file → file < fresh

namespace OpenFiles

open Function

variable {κ : Type*} [DecidableEq κ]

/-- A file that is open for writing, and the place of the next byte. -/
structure Handle where
  file : Nat
  position : Nat
deriving DecidableEq

section

variable (files : OpenFiles κ)

/-- What a name stands for. -/
def content (name : κ) : Option (List UInt8) :=
  (files.entries name).map files.contents

/-- A new file, in the place of what was there. -/
def create (name : κ) (content : List UInt8) : OpenFiles κ where
  entries := update files.entries name (some files.fresh)
  contents := update files.contents files.fresh content
  fresh := files.fresh + 1
  entries_lt := by
    intro other file hentry
    by_cases hname : other = name
    · rw [hname, update_self] at hentry
      cases hentry
      exact Nat.lt_succ_self _
    · rw [update_of_ne hname] at hentry
      exact Nat.lt_succ_of_lt (files.entries_lt other file hentry)

/-- `unlink()`, where it succeeds; those who have the file open keep it. -/
def unlink (name : κ) : OpenFiles κ where
  entries := update files.entries name none
  contents := files.contents
  fresh := files.fresh
  entries_lt := by
    intro other file hentry
    by_cases hname : other = name
    · rw [hname, update_self] at hentry
      cases hentry
    · rw [update_of_ne hname] at hentry
      exact files.entries_lt other file hentry

/-- A file is put in the place of what was there, or what was there is taken away. -/
def replace (name : κ) : Option (List UInt8) → OpenFiles κ
  | some content => files.create name content
  | none => files.unlink name

/-- `open(name, "wb")` -/
def openWrite (name : κ) : OpenFiles κ × Handle :=
  match files.entries name with
  | some file => ({ files with contents := update files.contents file [] }, ⟨file, 0⟩)
  | none => (files.create name [], ⟨files.fresh, 0⟩)

/-- The bytes of a file after a write; a gap in front of it is filled with zeros. -/
def overwrite (content : List UInt8) (position : Nat) (data : List UInt8) : List UInt8 :=
  if data = [] then content
  else content.take position ++ List.replicate (position - content.length) 0 ++ data ++
    content.drop (position + data.length)

/-- `write(data)` -/
def write (handle : Handle) (data : List UInt8) : OpenFiles κ × Handle :=
  ({ files with
      contents := update files.contents handle.file
        (overwrite (files.contents handle.file) handle.position data) },
    { handle with position := handle.position + data.length })

/-- A handle has written a file from its beginning to its end, and the file is under the name. -/
structure Streams (name : κ) (handle : Handle) (streamed : List UInt8) :
    Prop where
  entry : files.entries name = some handle.file
  content_eq : files.contents handle.file = streamed
  position_eq : handle.position = streamed.length

end

omit [DecidableEq κ] in
theorem Streams.content {files : OpenFiles κ} {name : κ} {handle : Handle} {streamed : List UInt8}
    (h : Streams files name handle streamed) : files.content name = some streamed := by
  unfold OpenFiles.content
  rw [h.entry, Option.map_some, h.content_eq]

/-! ### Those who write -/

theorem streams_openWrite (files : OpenFiles κ) (name : κ) :
    Streams (files.openWrite name).1 name (files.openWrite name).2 [] := by
  unfold openWrite
  cases hentry : files.entries name with
  | some file => exact ⟨hentry, update_self _ _ _, rfl⟩
  | none => exact ⟨update_self _ _ _, update_self _ _ _, rfl⟩

theorem overwrite_end (content data : List UInt8) :
    overwrite content content.length data = content ++ data := by
  unfold overwrite
  split
  · next hnone => rw [hnone, List.append_nil]
  · rw [List.take_length, Nat.sub_self, List.replicate_zero, List.append_nil,
      List.drop_eq_nil_of_le (Nat.le_add_right _ _), List.append_nil]

omit [DecidableEq κ] in
theorem Streams.write {files : OpenFiles κ} {name : κ} {handle : Handle} {streamed : List UInt8}
    (h : Streams files name handle streamed) (data : List UInt8) :
    Streams (files.write handle data).1 name (files.write handle data).2 (streamed ++ data) := by
  refine ⟨h.entry, ?_, ?_⟩
  · have hwritten : overwrite (files.contents handle.file) handle.position data =
        streamed ++ data := by
      rw [h.content_eq, h.position_eq]
      exact overwrite_end streamed data
    exact (update_self _ _ _).trans hwritten
  · show handle.position + data.length = _
    rw [h.position_eq, List.length_append]

section Elsewhere

variable {files : OpenFiles κ} {name other : κ} {handle : Handle} {streamed : List UInt8}

theorem Streams.create_other (h : Streams files name handle streamed) (hname : other ≠ name)
    (content : List UInt8) : Streams (files.create other content) name handle streamed := by
  have hfile : handle.file ≠ files.fresh := Nat.ne_of_lt (files.entries_lt _ _ h.entry)
  exact ⟨(update_of_ne hname.symm _ _).trans h.entry,
    (update_of_ne hfile _ _).trans h.content_eq, h.position_eq⟩

theorem Streams.unlink_other (h : Streams files name handle streamed) (hname : other ≠ name) :
    Streams (files.unlink other) name handle streamed :=
  ⟨(update_of_ne hname.symm _ _).trans h.entry, h.content_eq, h.position_eq⟩

theorem Streams.replace_other (h : Streams files name handle streamed) (hname : other ≠ name)
    (content : Option (List UInt8)) : Streams (files.replace other content) name handle streamed := by
  cases content with
  | some content => exact h.create_other hname content
  | none => exact h.unlink_other hname

theorem Streams.openWrite_other (h : Streams files name handle streamed) (hname : other ≠ name)
    (hfile : files.entries other ≠ some handle.file) :
    Streams (files.openWrite other).1 name handle streamed := by
  unfold openWrite
  cases hentry : files.entries other with
  | some file =>
      have hne : handle.file ≠ file := fun heq => hfile (heq ▸ hentry)
      exact ⟨h.entry, (update_of_ne hne _ _).trans h.content_eq, h.position_eq⟩
  | none => exact h.create_other hname []

omit [DecidableEq κ] in
theorem Streams.write_other (h : Streams files name handle streamed) {writer : Handle}
    (hfile : writer.file ≠ handle.file) (data : List UInt8) :
    Streams (files.write writer data).1 name handle streamed :=
  ⟨h.entry, (update_of_ne hfile.symm _ _).trans h.content_eq, h.position_eq⟩

/-- What an operation changes. -/
inductive Change (κ : Type*)
  | nothing
  /-- A file is opened under the name, put there or taken away. -/
  | entry (name : κ)
  | bytes (file : Nat)

/-- It is another name for another file, or another file. -/
def Change.Spares (files : OpenFiles κ) (name : κ) (handle : Handle) : Change κ → Prop
  | nothing => True
  | entry other => other ≠ name ∧ files.entries other ≠ some handle.file
  | bytes file => file ≠ handle.file

instance (files : OpenFiles κ) (name : κ) (handle : Handle) (change : Change κ) :
    Decidable (change.Spares files name handle) :=
  match change with
  | .nothing => .isTrue trivial
  | .entry other => inferInstanceAs (Decidable (other ≠ name ∧ _))
  | .bytes file => inferInstanceAs (Decidable (file ≠ handle.file))

end Elsewhere

end OpenFiles
