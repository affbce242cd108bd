/-
# Workspaces

Files in memory, for running commands without a disk. A workspace is a list of files under paths of
several names; a directory is there when a file lies in it. Paths are relative to the workspace: a
path that starts at a root or climbs out of the workspace leads nowhere.
-/

import HarnessSynthesis.Text.Basic

namespace HarnessSynthesis

/-- The names that lead to a file or directory. -/
abbrev Location := List Text

/-- Files in memory. -/
structure Workspace where
  files : List (Location × Text)
  deriving Repr

namespace Workspace

/-- The names of a path, without those that lead nowhere further. -/
def steps (path : Text) : List Text :=
  (Text.splitWhere (· = '/') path).filter fun name => name ≠ [] && name ≠ "."

def file? (w : Workspace) (place : Location) : Option Text :=
  (w.files.find? fun f => f.1 == place).map (·.2)

/-- Whether a place is a directory. The workspace itself always is one. -/
def isDirectory (w : Workspace) (place : Location) : Bool :=
  place.isEmpty || w.files.any fun f => place.isPrefixOf f.1 && f.1 ≠ place

/-- Where steps lead from a place; every place on the way has to be a directory. -/
def follow? (w : Workspace) : Location → List Text → Option Location
  | place, [] => some place
  | place, name :: rest =>
    if !w.isDirectory place then none
    else if name = ".." then
      (if place.isEmpty then none else w.follow? place.dropLast rest)
    else w.follow? (place ++ [name]) rest

/-- Whether a path can only name a directory. -/
def endsOpen (path : Text) : Bool :=
  Text.endsWith "/" path || Text.endsWith "/." path || Text.endsWith "/.." path

/-- Where a path leads. -/
def locate? (w : Workspace) (path : Text) : Option Location :=
  if path.isEmpty || Text.startsWith "/" path then none else w.follow? [] (steps path)

/-- The text of the file at a path. -/
def read? (w : Workspace) (path : Text) : Option Text := do
  guard !(endsOpen path)
  w.file? (← w.locate? path)

/-- The names in the directory at a path, when it is one. A name may come more than once. -/
def entries? (w : Workspace) (path : Text) : Option (List Text) := do
  let place ← w.locate? path
  guard (w.isDirectory place)
  return w.files.filterMap fun f =>
    if place.isPrefixOf f.1 then (f.1.drop place.length).head? else none

/-- The workspace with a text in the file at a path; the directory has to be there. -/
def write? (w : Workspace) (path : Text) (text : Text) : Option Workspace := do
  guard !(endsOpen path)
  let place ← w.locate? path
  guard !(w.isDirectory place)
  return ⟨w.files.filter (fun f => f.1 ≠ place) ++ [(place, text)]⟩

end Workspace

end HarnessSynthesis
