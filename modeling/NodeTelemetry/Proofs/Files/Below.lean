/-
This file shows that what is listed below a directory is everything that can be reached from it,
also through links that lead back up. On the way down each name leads deeper into the tree or
through one link more. A tree is only so deep, and a path leads through only so many links, so the
depth at which the listing stops is never reached.

What is listed lies below, by induction on the depth. The other way needs a measure that goes down
with each name: the entries that lie deeper than the place that was reached, and for each link that
may still be gone through as many as the whole tree has, and one. One that leads through a link may
come to any place at all, but it uses up a link, which is worth more than whatever it gains.
-/

import Mathlib.Data.List.Basic
import NodeTelemetry.Proofs.Files.Growth

namespace NodeTelemetry.FileTree

variable {tree : FileTree}

/-! ### What lies below a directory -/

/-- What lies below a path: the names that are listed in the directory to which it leads, and all
that lies below these. -/
inductive LiesBelow (tree : FileTree) : Path → Path → Prop
  | child {path : Path} {name : String} (listed : name ∈ tree.listDirectory path) :
      LiesBelow tree path (path.child name)
  | further {path other : Path} {name : String} (listed : name ∈ tree.listDirectory path)
      (below : LiesBelow tree (path.child name) other) : LiesBelow tree path other

/-- A path that leads to a file, with the time at which this was modified. There is nothing for a
path that leads to a directory or that cannot be inspected. -/
def fileAt? (tree : FileTree) (path : Path) : Option (Path × Int) :=
  match tree.status path with
  | .error _ => none
  | .ok status => if status.isDirectory then none else some (path, status.modified)

/-- Whether no directory lists a name that leads up again. -/
def ProperlyNamed (tree : FileTree) : Prop :=
  ∀ entry ∈ tree.entries, entry.1.name? ≠ some ".."

theorem fileAt?_eq_some {path : Path} {file : Path × Int} :
    tree.fileAt? path = some file ↔ path = file.1 ∧ ∃ status,
      tree.status path = .ok status ∧ status.isDirectory = false ∧ status.modified = file.2 := by
  unfold fileAt?
  split
  · next fault failed => simp [failed]
  · next status inspected =>
    obtain ⟨name, modified⟩ := file
    cases directory : status.isDirectory <;> simp [inspected, directory]

/-! ### Changes to properly named trees -/

theorem name?_child (place : Path) (name : String) : (place.child name).name? = some name :=
  List.getLast?_concat

/-- A free place has the last name that was gone, which leads down. -/
theorem name?_of_walkUpToLink {goOn : List String → Except Fault Spot} {place free : Path}
    {names : List String}
    (further : ∀ names, goOn names = .ok (.free free) → free.name? ≠ some "..")
    (leads : tree.walkUpToLink goOn place names = .ok (.free free)) : free.name? ≠ some ".." := by
  fun_induction walkUpToLink tree goOn place names with
  | case1 | case3 | case5 | case7 | case8 => cases leads
  | case2 | case6 =>
    next inductionHypothesis => exact inductionHypothesis leads
  | case4 place name rest notUp =>
    cases leads
    rw [name?_child]
    exact fun up => notUp (Option.some.inj up)
  | case9 => exact further _ leads

theorem name?_of_find {path free : Path} (leads : tree.find path = .ok (.free free)) :
    free.name? ≠ some ".." := by
  have walks (links : Nat) : ∀ place names, tree.walk links place names = .ok (.free free) →
      free.name? ≠ some ".." := by
    induction links with
    | zero => exact fun _ _ => name?_of_walkUpToLink fun _ stopped => by cases stopped
    | succ links inductionHypothesis =>
      exact fun _ _ => name?_of_walkUpToLink fun names => inductionHypothesis .top names
  exact walks linkLimit .top path.names leads

theorem name?_of_placeOf? {path place : Path} (found : tree.placeOf? path = some place) :
    place.name? = path.name? := by
  unfold placeOf? at found
  split at found
  · next name _ last =>
    cases found
    rw [name?_child, last]
  · cases found

theorem properlyNamed_empty : empty.ProperlyNamed :=
  fun _ member => by cases member

namespace ProperlyNamed

theorem enter (proper : tree.ProperlyNamed) {place : Path} (down : place.name? ≠ some "..")
    (entry : Entry) : (tree.enter place entry).ProperlyNamed :=
  List.forall_mem_cons.mpr ⟨down, proper⟩

theorem clear (proper : tree.ProperlyNamed) (place : Path) : (tree.clear place).ProperlyNamed :=
  fun entry member => proper entry (List.mem_filter.mp member).1

theorem remove (proper : tree.ProperlyNamed) (path : Path) : (tree.remove path).ProperlyNamed := by
  unfold FileTree.remove
  split
  · exact proper
  · exact proper.clear _

theorem makeDirectory (proper : tree.ProperlyNamed) (path : Path) :
    (tree.makeDirectory path).ProperlyNamed := by
  unfold FileTree.makeDirectory
  induction path.steps generalizing tree with
  | nil => exact proper
  | cons step steps inductionHypothesis =>
    refine inductionHypothesis ?_
    unfold makeOneDirectory
    split
    · next place leads => exact proper.enter (name?_of_find leads) _
    · exact proper

theorem write (proper : tree.ProperlyNamed) (path : Path) (change : List UInt8 → List UInt8)
    (modified : Int) : (tree.write path change modified).ProperlyNamed := by
  have made := proper.makeDirectory path.parent
  unfold FileTree.write
  simp only
  split
  · exact made
  · next place leads => exact made.enter (name?_of_find leads) _
  · exact made

variable {path target : Path}

/-- A file that is replaced has the last name of its path. -/
theorem replace (proper : tree.ProperlyNamed) (down : path.name? ≠ some "..") (bytes : List UInt8)
    (modified : Int) : (tree.replace path bytes modified).ProperlyNamed := by
  have made := proper.makeDirectory path.parent
  unfold FileTree.replace
  simp only
  split
  · exact made
  · next place found => exact (made.clear place).enter (name?_of_placeOf? found ▸ down) _

theorem makeLink (proper : tree.ProperlyNamed) (down : path.name? ≠ some "..") (target : Path) :
    (tree.makeLink path target).ProperlyNamed := by
  have made := proper.makeDirectory path.parent
  unfold FileTree.makeLink
  simp only
  split
  · exact made
  · next place found => exact (made.clear place).enter (name?_of_placeOf? found ▸ down) _

/-- An entry that is moved takes the last name of its new path, and those below it keep their own.
-/
theorem rename (proper : tree.ProperlyNamed) (source : Path) (down : target.name? ≠ some "..") :
    (tree.rename source target).ProperlyNamed := by
  have made := (proper.makeDirectory target.parent).remove target
  unfold FileTree.rename
  simp only
  split
  · next sourcePlace targetPlace _ found =>
    intro entry member
    obtain ⟨before, present, rfl⟩ := List.mem_map.mp member
    have named := made before present
    split
    · have downPlace := name?_of_placeOf? found ▸ down
      -- What is moved keeps its last name, but for the entry that gets the new name itself.
      rw [Path.moved, Path.name?, List.getLast?_append, List.getLast?_drop]
      split
      · exact downPlace
      · cases last : before.1.names.getLast? with
        | none => exact downPlace
        | some name => rwa [Path.name?, last] at named
    · exact named
  · exact made

end ProperlyNamed

/-! ### Ways in two parts -/

/-- A way that comes to a directory goes on from there, or from where its first link leads. -/
theorem walkUpToLink_append {goOn : List String → Except Fault Spot} {place reached : Path}
    {names : List String} {id : FileId}
    (leads : tree.walkUpToLink goOn place names = .ok (.directory reached id)) :
    (∀ rest, tree.walkUpToLink goOn place (names ++ rest) =
        tree.walkUpToLink goOn reached rest) ∨
      ∃ onward, goOn onward = .ok (.directory reached id) ∧
        ∀ rest, tree.walkUpToLink goOn place (names ++ rest) = goOn (onward ++ rest) := by
  fun_induction walkUpToLink tree goOn place names with
  | case1 place =>
    cases leads
    exact .inl fun _ => rfl
  | case2 place rest inductionHypothesis =>
    have goesUp (names : List String) : tree.walkUpToLink goOn place (".." :: names) =
        tree.walkUpToLink goOn place.parent names := by
      rw [walkUpToLink, if_pos rfl]
    simp only [List.cons_append, goesUp]
    exact inductionHypothesis leads
  | case3 | case4 | case5 | case7 | case8 => cases leads
  | case6 place name rest notUp short id listed inductionHypothesis =>
    have goesDown (names : List String) : tree.walkUpToLink goOn place (name :: names) =
        tree.walkUpToLink goOn (place.child name) names := by
      rw [walkUpToLink, if_neg notUp, if_neg short, listed]
    simp only [List.cons_append, goesDown]
    exact inductionHypothesis leads
  | case9 place name rest notUp short target listed =>
    have goesOver (names : List String) : tree.walkUpToLink goOn place (name :: names) =
        goOn (target.names ++ names) := by
      rw [walkUpToLink, if_neg notUp, if_neg short, listed]
    refine .inr ⟨target.names ++ rest, leads, fun others => ?_⟩
    rw [List.cons_append, goesOver, List.append_assoc]

/-- A way that comes to a directory goes on from there, with the links that are left. -/
theorem walk_append {links : Nat} {place reached : Path} {names : List String} {id : FileId}
    (leads : tree.walk links place names = .ok (.directory reached id)) :
    ∃ left ≤ links, ∀ rest, tree.walk links place (names ++ rest) = tree.walk left reached rest := by
  induction links generalizing place names with
  | zero =>
    rcases walkUpToLink_append leads with direct | ⟨_, stopped, _⟩
    · exact ⟨0, Nat.le_refl 0, direct⟩
    · cases stopped
  | succ links inductionHypothesis =>
    rcases walkUpToLink_append leads with direct | ⟨onward, goesOn, further⟩
    · exact ⟨links + 1, Nat.le_refl _, direct⟩
    · obtain ⟨left, fewer, rest⟩ := inductionHypothesis goesOn
      exact ⟨left, Nat.le_succ_of_le fewer, fun names => (further names).trans (rest names)⟩

/-! ### Going down -/

/-- How many entries lie deeper than a place. -/
def deeper (tree : FileTree) (place : Path) : Nat :=
  (tree.entries.filter fun entry => place.names.length < entry.1.names.length).length

/-- Whether a path leads to a directory from which it goes on, through so many links at most. -/
def Stands (tree : FileTree) (path : Path) (left : Nat) (place : Path) : Prop :=
  ∀ rest, tree.find ⟨path.names ++ rest⟩ = tree.walk left place rest

/-- How many names may still be gone down from a directory: those that lie deeper, and for each link
that is left those of the whole tree. -/
def room (tree : FileTree) (left : Nat) (place : Path) : Nat :=
  left * (tree.entries.length + 1) + tree.deeper place

theorem deeper_le (tree : FileTree) (place : Path) : tree.deeper place ≤ tree.entries.length :=
  List.length_filter_le _ _

/-- A child has fewer entries below its depth than the directory that lists it. -/
theorem deeper_child_lt {place : Path} {name : String} {entry : Entry}
    (listed : (place.child name, entry) ∈ tree.entries) :
    tree.deeper (place.child name) < tree.deeper place := by
  have inParts : (tree.entries.filter fun entry =>
        decide ((place.child name).names.length < entry.1.names.length)) =
      (tree.entries.filter fun entry =>
        decide (place.names.length < entry.1.names.length)).filter fun entry =>
          decide ((place.child name).names.length < entry.1.names.length) := by
    rw [List.filter_filter]
    refine List.filter_congr fun other _ => ?_
    have longer : (place.child name).names.length = place.names.length + 1 := by
      simp [Path.child]
    rw [Bool.eq_iff_iff, Bool.and_eq_true, decide_eq_true_iff, decide_eq_true_iff, longer]
    omega
  unfold deeper
  rw [inParts]
  refine List.length_filter_lt_length_iff_exists.mpr ⟨_, List.mem_filter.mpr ⟨listed, ?_⟩, ?_⟩
  · simp [Path.child]
  · simp

/-- A link more that was gone through takes away more room than any place can give back. -/
theorem room_lt {left linksLeft : Nat} (place : Path) (fewer : left < linksLeft)
    (reached : Path) : tree.room left reached < tree.room linksLeft place := by
  have bound := tree.deeper_le reached
  have wider : (left + 1) * (tree.entries.length + 1) ≤ linksLeft * (tree.entries.length + 1) :=
    Nat.mul_le_mul_right _ fewer
  rw [Nat.add_one_mul] at wider
  unfold room
  omega

theorem walk_nil (links : Nat) (place : Path) :
    tree.walk links place [] = .ok (.directory place (tree.directoryId place)) := by
  cases links <;> rfl

theorem mem_childNames {place : Path} {name : String} :
    name ∈ tree.childNames place ↔ ∃ entry, (place.child name, entry) ∈ tree.entries := by
  unfold childNames
  rw [List.mem_filterMap]
  constructor
  · rintro ⟨⟨⟨names⟩, entry⟩, listed, holds⟩
    split at holds
    · next parent =>
      refine ⟨entry, ?_⟩
      subst parent
      rw [show (Path.parent ⟨names⟩).child name = ⟨names⟩ from
        congrArg Path.mk (List.dropLast_append_getLast? name holds)]
      exact listed
    · cases holds
  · rintro ⟨entry, listed⟩
    exact ⟨_, listed, by rw [if_pos (parent_child place name)]; simp [Path.name?, Path.child]⟩

/-- What is listed for a path are the children of the place at which it stands. -/
theorem Stands.listDirectory {path place : Path} {left : Nat}
    (stands : tree.Stands path left place) : tree.listDirectory path = tree.childNames place := by
  have leads := (stands []).trans (walk_nil left place)
  rw [List.append_nil] at leads
  rw [FileTree.listDirectory, show tree.find path = _ from leads]

/-- One name leads on within the tree, or through one of the links that are left. -/
theorem walk_cons {links : Nat} {place reached : Path} {name : String} {id : FileId} {entry : Entry}
    (notUp : name ≠ "..") (listed : tree.entryAt (place.child name) = some entry)
    (leads : tree.walk links place [name] = .ok (.directory reached id)) :
    (reached = place.child name ∧
        ∀ rest, tree.walk links place (name :: rest) = tree.walk links reached rest) ∨
      ∃ left < links, ∀ rest, tree.walk links place (name :: rest) = tree.walk left reached rest := by
  have short : ¬ nameLimit < name.utf8ByteSize := by
    intro long
    cases links <;> simp [walk, walkUpToLink, notUp, long] at leads
  cases entry with
  | file id => cases links <;> simp [walk, walkUpToLink, notUp, short, listed] at leads
  | directory known =>
    have enters (rest : List String) :
        tree.walk links place (name :: rest) = tree.walk links (place.child name) rest := by
      cases links <;> simp [walk, walkUpToLink, notUp, short, listed]
    rw [enters, walk_nil] at leads
    cases leads
    exact .inl ⟨rfl, enters⟩
  | link target =>
    cases links with
    | zero => simp [walk, walkUpToLink, notUp, short, listed] at leads
    | succ links =>
      have enters (rest : List String) : tree.walk (links + 1) place (name :: rest) =
          tree.walk links .top (target.names ++ rest) := by
        simp [walk, walkUpToLink, notUp, short, listed]
      rw [enters, List.append_nil] at leads
      obtain ⟨left, fewer, onward⟩ := walk_append leads
      exact .inr ⟨left, Nat.lt_succ_of_le fewer, fun rest => (enters rest).trans (onward rest)⟩

/-- One name leads deeper down, or through one more link. -/
theorem Stands.child (proper : tree.ProperlyNamed) {path place reached : Path} {left : Nat}
    {name : String} {id : FileId} (stands : tree.Stands path left place)
    (listed : name ∈ tree.listDirectory path)
    (leads : tree.find (path.child name) = .ok (.directory reached id)) :
    ∃ linksLeft, tree.Stands (path.child name) linksLeft reached ∧
      tree.room linksLeft reached < tree.room left place := by
  rw [stands.listDirectory] at listed
  obtain ⟨entry, present⟩ := mem_childNames.mp listed
  have notUp : name ≠ ".." := by
    rintro rfl
    exact proper _ present (name?_child place "..")
  obtain ⟨found, known⟩ : ∃ found, tree.entryAt (place.child name) = some found :=
    Option.isSome_iff_exists.mp (List.lookup_isSome_iff.mpr ⟨_, present, by simp⟩)
  have onward (rest : List String) : tree.find ⟨(path.child name).names ++ rest⟩ =
      tree.walk left place (name :: rest) := by
    rw [Path.child, List.append_assoc]
    exact stands (name :: rest)
  rw [Path.child, stands [name]] at leads
  rcases walk_cons notUp known leads with ⟨rfl, goesOn⟩ | ⟨linksLeft, fewer, goesOn⟩
  · exact ⟨left, fun rest => (onward rest).trans (goesOn rest),
      Nat.add_lt_add_left (deeper_child_lt present) _⟩
  · exact ⟨linksLeft, fun rest => (onward rest).trans (goesOn rest), room_lt place fewer reached⟩

/-! ### All that is listed -/

/-- The paths below a directory, down to some depth. -/
def pathsBelow (tree : FileTree) (depth : Nat) (path : Path) : List Path :=
  match depth with
  | 0 => []
  | depth + 1 =>
    (tree.listDirectory path).flatMap fun name =>
      path.child name :: pathsBelow tree depth (path.child name)

theorem mem_pathsBelow_succ {depth : Nat} {path other : Path} :
    other ∈ tree.pathsBelow (depth + 1) path ↔ ∃ name ∈ tree.listDirectory path,
      other = path.child name ∨ other ∈ tree.pathsBelow depth (path.child name) := by
  simp only [pathsBelow, List.mem_flatMap, List.mem_cons]

theorem isDirectory_iff {path : Path} :
    tree.isDirectory path = true ↔ ∃ place id, tree.find path = .ok (.directory place id) := by
  unfold FileTree.isDirectory status
  cases tree.find path with
  | error fault => simp
  | ok spot => cases spot <;> simp [statusOf]

theorem isDirectory_of_mem_listDirectory {path : Path} {name : String}
    (listed : name ∈ tree.listDirectory path) : tree.isDirectory path = true := by
  unfold listDirectory at listed
  split at listed
  · next place id leads => exact isDirectory_iff.mpr ⟨place, id, leads⟩
  · cases listed

theorem LiesBelow.isDirectory {path other : Path} (below : tree.LiesBelow path other) :
    tree.isDirectory path = true := by
  cases below with
  | child listed | further listed => exact isDirectory_of_mem_listDirectory listed

/-- Down to any depth nothing is listed that does not lie below. -/
theorem liesBelow_of_mem_pathsBelow {depth : Nat} {path other : Path}
    (member : other ∈ tree.pathsBelow depth path) : tree.LiesBelow path other := by
  induction depth generalizing path with
  | zero => cases member
  | succ depth inductionHypothesis =>
    obtain ⟨name, listed, rfl | deeper⟩ := mem_pathsBelow_succ.mp member
    · exact .child listed
    · exact .further listed (inductionHypothesis deeper)

/-- All that lies below a directory is listed, if the depth is more than the room there is. -/
theorem mem_pathsBelow_of_liesBelow (proper : tree.ProperlyNamed) {depth left : Nat}
    {path place other : Path} (stands : tree.Stands path left place)
    (enough : tree.room left place < depth) (below : tree.LiesBelow path other) :
    other ∈ tree.pathsBelow depth path := by
  induction below generalizing depth left place with
  | @child path name listed =>
    obtain ⟨depth, rfl⟩ := Nat.exists_eq_add_one_of_ne_zero (Nat.ne_zero_of_lt enough)
    exact mem_pathsBelow_succ.mpr ⟨name, listed, .inl rfl⟩
  | @further path other name listed below inductionHypothesis =>
    obtain ⟨depth, rfl⟩ := Nat.exists_eq_add_one_of_ne_zero (Nat.ne_zero_of_lt enough)
    obtain ⟨reached, id, leads⟩ := isDirectory_iff.mp below.isDirectory
    obtain ⟨linksLeft, standsBelow, less⟩ := stands.child proper listed leads
    exact mem_pathsBelow_succ.mpr ⟨name, listed, .inr (inductionHypothesis standsBelow (by omega))⟩

/-- A directory stands where its path leads, with some of the links left. -/
theorem exists_stands {path : Path} (directory : tree.isDirectory path = true) :
    ∃ left ≤ linkLimit, ∃ place, tree.Stands path left place := by
  obtain ⟨place, id, leads⟩ := isDirectory_iff.mp directory
  obtain ⟨left, fewer, goesOn⟩ := walk_append leads
  exact ⟨left, fewer, place, goesOn⟩

/-- At the beginning there is less room than the depth at which the listing stops. -/
theorem room_lt_depthLimit (tree : FileTree) {left : Nat} (fewer : left ≤ linkLimit)
    (place : Path) : tree.room left place < tree.depthLimit := by
  have bound := tree.deeper_le place
  have wider : left * (tree.entries.length + 1) ≤ linkLimit * (tree.entries.length + 1) :=
    Nat.mul_le_mul_right _ fewer
  unfold room depthLimit
  rw [Nat.add_one_mul]
  omega

/-- Down to the depth at which the listing stops, a directory lists all that lies below it. -/
theorem mem_pathsBelow_iff (proper : tree.ProperlyNamed) {root : Path}
    (directory : tree.isDirectory root = true) {path : Path} :
    path ∈ tree.pathsBelow tree.depthLimit root ↔ tree.LiesBelow root path := by
  constructor
  · exact liesBelow_of_mem_pathsBelow
  · intro below
    obtain ⟨left, fewer, place, stands⟩ := exists_stands directory
    exact mem_pathsBelow_of_liesBelow proper stands (tree.room_lt_depthLimit fewer place) below

/-! ### The files among it -/

theorem pathsBelow_of_not_isDirectory {depth : Nat} {path : Path}
    (noDirectory : tree.isDirectory path = false) : tree.pathsBelow depth path = [] := by
  refine List.eq_nil_iff_forall_not_mem.mpr fun other member => ?_
  rw [(liesBelow_of_mem_pathsBelow member).isDirectory] at noDirectory
  cases noDirectory

/-- The files that are listed are those of the paths that lead to a file. -/
theorem filesBelow_eq_filterMap (tree : FileTree) (depth : Nat) (path : Path) :
    tree.filesBelow depth path = (tree.pathsBelow depth path).filterMap tree.fileAt? := by
  induction depth generalizing path with
  | zero => rfl
  | succ depth inductionHypothesis =>
    rw [filesBelow, pathsBelow, List.filterMap_flatMap]
    refine List.flatMap_congr fun name _ => ?_
    have stops (noDirectory : tree.isDirectory (path.child name) = false) :
        tree.pathsBelow depth (path.child name) = [] :=
      pathsBelow_of_not_isDirectory noDirectory
    rw [List.filterMap_cons]
    cases inspected : tree.status (path.child name) with
    | error fault =>
      simp [fileAt?, inspected, stops (by simp [FileTree.isDirectory, inspected])]
    | ok status =>
      cases directory : status.isDirectory with
      | true => simp [fileAt?, inspected, directory, inductionHypothesis]
      | false =>
        simp [fileAt?, inspected, directory,
          stops (by simp [FileTree.isDirectory, inspected, directory])]

end NodeTelemetry.FileTree
