/-
This file holds the paths of files: the names on the way from the top of a tree. Paths are compared
name by name, so that all that lies below a directory comes together.
-/

namespace NodeTelemetry

/-- A path, as the names from the top of the tree down. The name `..` goes up again. -/
structure Path where
  names : List String
deriving DecidableEq

namespace Path

/-- The top of the tree. -/
def top : Path :=
  ⟨[]⟩

/-- The path that a text spells with slashes between the names. Empty names and the name `.` stay
where they are, so they are left out. -/
def ofText (text : String) : Path :=
  ⟨(text.splitOn "/").filter fun name => name != "" && name != "."⟩

def text (path : Path) : String :=
  "/".intercalate path.names

/-- The path of something inside a directory. -/
def child (path : Path) (name : String) : Path :=
  ⟨path.names ++ [name]⟩

/-- The path without its last name. -/
def parent (path : Path) : Path :=
  ⟨path.names.dropLast⟩

/-- The last name of a path. -/
def name? (path : Path) : Option String :=
  path.names.getLast?

/-- The paths on the way to a path, from the top to the path itself. -/
def steps (path : Path) : List Path :=
  (List.range (path.names.length + 1)).map fun length => ⟨path.names.take length⟩

/-- Whether a path is another one or lies below it. -/
def isWithin (path ancestor : Path) : Bool :=
  ancestor.names.isPrefixOf path.names

/-- A path within a directory after the directory has moved. -/
def moved (path source target : Path) : Path :=
  ⟨target.names ++ path.names.drop source.names.length⟩

/-- Whether a path stands before another one. -/
def precedes (left right : Path) : Bool :=
  left.names < right.names

end Path

end NodeTelemetry
