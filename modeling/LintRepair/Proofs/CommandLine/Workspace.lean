import LintRepair.CommandLine.Files
import LintRepair.Proofs.Text.Piece
import Mathlib.Data.List.Induction

/-!
# Names of files and writing to them

A file in the working directory has its relative path, the absolute one and the address of the
scheme `file` as names.  Writing changes contents only, so paths lead where they led before.  After
contents are written to paths one after another, a file has the last of those that were written to
its place.
-/

namespace LintRepair

namespace Path

/-- A name that a directory can have. -/
structure IsName (name : Text) : Prop where
  nonempty : name ≠ []
  not_here : name ≠ ['.']
  not_above : name ≠ ['.', '.']
  whole : '/' ∉ name

/-- A path behind the names of directories. -/
def behind : List Text → Text → Text
  | [], path => path
  | name :: names, path => name ++ '/' :: behind names path

/-- The absolute form of a path in a directory. -/
def absolute (directory : List Text) (path : Text) : Text := '/' :: behind directory path

@[simp]
theorem ofFilename_file (path : Text) : ofFilename ("file://" ++ path) = path := by
  rw [ofFilename, Text.after?_eq_some_iff.mpr rfl, Option.getD_some]

theorem parts_append_slash {name : Text} (whole : '/' ∉ name) (path : Text) :
    parts (name ++ '/' :: path) = name :: parts path := by
  induction name with
  | nil => simp [parts]
  | cons c name ih =>
      rw [List.mem_cons, not_or] at whole
      rw [List.cons_append, parts, if_neg (Ne.symm whole.1), ih whole.2, Text.pushFirst]

theorem parts_absolute {directory : List Text} (proper : ∀ name ∈ directory, IsName name)
    (path : Text) : parts (absolute directory path) = [] :: (directory ++ parts path) := by
  have parts_behind : parts (behind directory path) = directory ++ parts path := by
    induction directory with
    | nil => rfl
    | cons name directory ih =>
        obtain ⟨first, later⟩ := List.forall_mem_cons.mp proper
        rw [behind, parts_append_slash first.whole, ih later, List.cons_append]
  rw [absolute, parts, if_pos rfl, parts_behind]

end Path

namespace Workspace

section Names

variable {w : Workspace}

theorem isDirectory_of_prefix {place : List Text} (above : place <+: w.directory) :
    w.isDirectory place := by
  simp [isDirectory, List.isPrefixOf_iff_prefix.mpr above]

theorem walk?_name {place rest : List Text} {name : Text} (proper : Path.IsName name)
    (above : place ++ [name] <+: w.directory) :
    w.walk? place (name :: rest) = w.walk? (place ++ [name]) rest := by
  have here := isDirectory_of_prefix ((List.prefix_append place [name]).trans above)
  have below := isDirectory_of_prefix above
  simp [walk?, here, below, proper.nonempty, proper.not_here, proper.not_above]

/-- The names of the working directory lead down to it. -/
theorem walk?_names {place names rest : List Text} (proper : ∀ name ∈ names, Path.IsName name)
    (above : place ++ names <+: w.directory) :
    w.walk? place (names ++ rest) = w.walk? (place ++ names) rest := by
  induction names generalizing place with
  | nil => rw [List.nil_append, List.append_nil]
  | cons name names ih =>
      obtain ⟨first, later⟩ := List.forall_mem_cons.mp proper
      rw [List.append_cons] at above
      rw [List.cons_append, walk?_name first ((List.prefix_append _ names).trans above),
        ih later above, ← List.append_cons]

/-- The absolute form of a relative path leads where the path leads. -/
theorem resolve?_absolute (proper : ∀ name ∈ w.directory, Path.IsName name) {path : Text}
    (nonempty : path ≠ []) (relative : Path.isAbsolute path = false) :
    w.resolve? (Path.absolute w.directory path) = w.resolve? path := by
  have top : w.isDirectory [] := isDirectory_of_prefix List.nil_prefix
  have down : w.walk? [] (w.directory ++ Path.parts path) =
      w.walk? w.directory (Path.parts path) := walk?_names proper (List.prefix_refl _)
  have from_top : w.resolve? (Path.absolute w.directory path) =
      w.walk? [] ([] :: (w.directory ++ Path.parts path)) := by
    rw [resolve?, Path.parts_absolute proper]
    rfl
  rw [from_top, walk?, if_pos top, if_pos (.inl rfl), down]
  simp [resolve?, origin, relative, nonempty]

/-- A file in the working directory has three names: relative, absolute, and as an address. -/
theorem resolve?_address (proper : ∀ name ∈ w.directory, Path.IsName name) {path : Text}
    (nonempty : path ≠ []) (relative : Path.isAbsolute path = false) :
    w.resolve? (Path.ofFilename ("file://" ++ Path.absolute w.directory path)) =
      w.resolve? path := by
  rw [Path.ofFilename_file, resolve?_absolute proper nonempty relative]

example : (ofList [("a.ts", "x")]).resolve? (Path.ofFilename "file:///project/a.ts") =
    (ofList [("a.ts", "x")]).resolve? "./a.ts" := by decide +kernel

end Names

private theorem lookup_put (entries : List (List Text × Text)) (place other : List Text)
    (content : Text) :
    (entries.map fun entry => if entry.1 = place then (place, content) else entry).lookup other =
      (entries.lookup other).map fun old => if other = place then content else old := by
  induction entries with
  | nil => rfl
  | cons entry entries ih =>
      obtain ⟨names, old⟩ := entry
      rw [List.map_cons, List.lookup_cons]
      by_cases written : names = place
      · subst written
        by_cases same : other = names
        · simp [same]
        · simp [List.lookup_cons, beq_false_of_ne same, ih]
      · rw [if_neg written, List.lookup_cons, ih]
        by_cases same : other = names
        · simp [same, written]
        · simp [beq_false_of_ne same]

@[simp]
theorem directory_put (w : Workspace) (place : List Text) (content : Text) :
    (w.put place content).directory = w.directory := rfl

theorem content?_put (w : Workspace) (place other : List Text) (content : Text) :
    (w.put place content).content? other =
      (w.content? other).map fun old => if other = place then content else old :=
  lookup_put w.entries place other content

@[simp]
theorem isDirectory_put (w : Workspace) (place other : List Text) (content : Text) :
    (w.put place content).isDirectory other = w.isDirectory other := by
  simp only [isDirectory, put, List.any_map]
  congr 2
  funext entry
  simp only [Function.comp_apply]
  split
  · rename_i written
    simp [← written]
  · rfl

@[simp]
theorem walk?_put (w : Workspace) (place start : List Text) (content : Text)
    (parts : List Text) :
    (w.put place content).walk? start parts = w.walk? start parts := by
  induction parts generalizing start with
  | nil => rfl
  | cons part parts ih => simp [walk?, ih, content?_put]

theorem resolve?_put (w : Workspace) (place : List Text) (content path : Text) :
    (w.put place content).resolve? path = w.resolve? path := by
  simp [resolve?]

@[simp]
theorem resolve?_write (w : Workspace) (path content other : Text) :
    (w.write path content).resolve? other = w.resolve? other := by
  unfold write
  split
  · exact resolve?_put w _ content other
  · rfl

@[simp]
theorem resolve?_writeAll (w : Workspace) (writes : List (Text × Text)) (path : Text) :
    (w.writeAll writes).resolve? path = w.resolve? path := by
  induction writes generalizing w with
  | nil => rfl
  | cons first writes ih => exact (ih (w.write first.1 first.2)).trans (resolve?_write ..)

theorem writeAll_append_singleton (w : Workspace) (writes : List (Text × Text))
    (last : Text × Text) :
    w.writeAll (writes ++ [last]) = (w.writeAll writes).write last.1 last.2 := by
  simp [writeAll]

theorem read?_write (w : Workspace) (path content other : Text) :
    (w.write path content).read? other =
      (w.read? other).map fun old =>
        if w.resolve? path = w.resolve? other then content else old := by
  simp only [read?, resolve?_write]
  cases read_at : w.resolve? other with
  | none => rfl
  | some there =>
      simp only [Option.bind_eq_bind, Option.bind_some, write]
      cases written_at : w.resolve? path with
      | none => simp
      | some place => simp [content?_put, eq_comm]

/-- After writes one after another, a file has the last content that was written to its place. -/
theorem read?_writeAll (w : Workspace) (writes : List (Text × Text)) (path : Text) :
    (w.writeAll writes).read? path =
      (w.read? path).map fun old =>
        ((writes.filter fun written => w.resolve? written.1 = w.resolve? path).getLast?.map
          (·.2)).getD old := by
  induction writes using List.reverseRecOn with
  | nil => simp [writeAll]
  | append_singleton writes last ih =>
      rw [writeAll_append_singleton, read?_write, ih, Option.map_map]
      congr 1
      funext old
      by_cases same : w.resolve? last.1 = w.resolve? path
      · simp [same]
      · simp [same]

/-- A file to whose place nothing is written keeps its content. -/
theorem read?_writeAll_of_elsewhere {w : Workspace} {writes : List (Text × Text)} {path : Text}
    (elsewhere : ∀ written ∈ writes, w.resolve? written.1 ≠ w.resolve? path) :
    (w.writeAll writes).read? path = w.read? path := by
  have unwritten : (writes.filter fun written => w.resolve? written.1 = w.resolve? path) = [] :=
    List.filter_eq_nil_iff.mpr fun written member => by simpa using elsewhere written member
  rw [read?_writeAll, unwritten]
  simp

end Workspace

end LintRepair
