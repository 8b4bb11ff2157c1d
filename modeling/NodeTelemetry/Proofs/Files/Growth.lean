/-
This file shows that extending a file, making a new one or setting a time leaves every path leading
where it led and every file with what it holds at its front. Every entry of a tree is in a
directory, and a new entry is made where there was none, so no way through the tree meets it before
its end.

A way goes from directory to directory, and at each of them it looks up the next name. Where it
found an entry it finds the same one in a tree that lists more, so it takes the same turns, through
links as well, and comes to the same end. It could go on farther only where nothing was listed, and
there it had come to its end: a free place. That place lies in a directory, so an entry may be made
there without any other entry hanging in the air.
-/

import NodeTelemetry.Proofs.Files.Soundness

namespace NodeTelemetry.FileTree

variable {tree : FileTree}

/-! ### Entries in directories -/

/-- Whether a place is that of a directory. -/
def Standing (tree : FileTree) (place : Path) : Prop :=
  place = .top ∨ ∃ id, tree.entryAt place = some (.directory id)

/-- Whether every entry is in a directory. -/
def Rooted (tree : FileTree) : Prop :=
  ∀ place entry, tree.entryAt place = some entry → place ≠ .top ∧ tree.Standing place.parent

/-- Whether what is listed in a tree is listed in another one. -/
def Extends (before after : FileTree) : Prop :=
  ∀ place entry, before.entryAt place = some entry → after.entryAt place = some entry

theorem Extends.refl (tree : FileTree) : tree.Extends tree :=
  fun _ _ listed => listed

theorem Extends.trans {first second third : FileTree} (earlier : first.Extends second)
    (later : second.Extends third) : first.Extends third :=
  fun place entry listed => later place entry (earlier place entry listed)

theorem parent_child (place : Path) (name : String) : (place.child name).parent = place :=
  congrArg Path.mk List.dropLast_concat

theorem child_ne_top (place : Path) (name : String) : place.child name ≠ .top := by
  intro same
  exact List.append_ne_nil_of_right_ne_nil _ (List.cons_ne_nil name []) (congrArg Path.names same)

theorem Standing.parent (rooted : tree.Rooted) {place : Path} (standing : tree.Standing place) :
    tree.Standing place.parent := by
  rcases standing with rfl | ⟨id, listed⟩
  · exact .inl rfl
  · exact (rooted place _ listed).2

theorem Standing.extends {after : FileTree} {place : Path} (standing : tree.Standing place)
    (extend : tree.Extends after) : after.Standing place :=
  standing.imp_right fun ⟨id, listed⟩ => ⟨id, extend place _ listed⟩

theorem Rooted.entryAt_top (rooted : tree.Rooted) : tree.entryAt .top = none := by
  cases listed : tree.entryAt .top with
  | none => rfl
  | some entry => exact absurd rfl (rooted .top entry listed).1

/-- A directory has the same identity in a tree that lists more. -/
theorem Extends.directoryId_eq {after : FileTree} (extend : tree.Extends after)
    (rooted : tree.Rooted) (rootedAfter : after.Rooted) {place : Path}
    (standing : tree.Standing place) : after.directoryId place = tree.directoryId place := by
  unfold directoryId
  rcases standing with rfl | ⟨id, listed⟩
  · rw [rooted.entryAt_top, rootedAfter.entryAt_top]
  · rw [listed, extend place _ listed]

/-! ### Ways through a tree -/

/-- Whether what was found in a tree is found again, or lies in one of its directories if it is
free. -/
def Spot.Kept (tree : FileTree) (again : Except Fault Spot) (spot : Spot) : Prop :=
  match spot with
  | .free place => place ≠ .top ∧ tree.Standing place.parent
  | spot => again = .ok spot

variable {after : FileTree}

/-- A way up to its first link finds again what it found, if what follows the link does. -/
theorem kept_walkUpToLink {goOn goOnAfter : List String → Except Fault Spot} {place : Path}
    {names : List String} {spot : Spot} (rooted : tree.Rooted) (rootedAfter : after.Rooted)
    (extend : tree.Extends after) (standing : tree.Standing place)
    (further : ∀ names spot, goOn names = .ok spot → spot.Kept tree (goOnAfter names))
    (leads : tree.walkUpToLink goOn place names = .ok spot) :
    spot.Kept tree (after.walkUpToLink goOnAfter place names) := by
  fun_induction walkUpToLink tree goOn place names with
  | case1 place =>
    obtain rfl := Except.ok.inj leads
    show Except.ok _ = _
    rw [extend.directoryId_eq rooted rootedAfter standing]
  | case2 place rest inductionHypothesis =>
    rw [walkUpToLink, if_pos rfl]
    exact inductionHypothesis (standing.parent rooted) leads
  | case3 | case5 | case8 => cases leads
  | case4 place name rest _ _ nothing last =>
    obtain rfl := Except.ok.inj leads
    exact ⟨child_ne_top place name, (parent_child place name).symm ▸ standing⟩
  | case6 place name rest notUp short id listed inductionHypothesis =>
    rw [walkUpToLink, if_neg notUp, if_neg short, extend _ _ listed]
    exact inductionHypothesis (.inr ⟨id, listed⟩) leads
  | case7 place name rest notUp short id listed last =>
    obtain rfl := Except.ok.inj leads
    show walkUpToLink after goOnAfter place (name :: rest) = _
    rw [walkUpToLink, if_neg notUp, if_neg short, extend _ _ listed]
    exact if_pos last
  | case9 place name rest notUp short target listed =>
    rw [walkUpToLink, if_neg notUp, if_neg short, extend _ _ listed]
    exact further _ _ leads

/-- A way through so many links finds again what it found. -/
theorem kept_walk {links : Nat} {place : Path} {names : List String} {spot : Spot}
    (rooted : tree.Rooted) (rootedAfter : after.Rooted) (extend : tree.Extends after)
    (standing : tree.Standing place) (leads : tree.walk links place names = .ok spot) :
    spot.Kept tree (after.walk links place names) := by
  induction links generalizing place names spot with
  | zero =>
    exact kept_walkUpToLink rooted rootedAfter extend standing (fun _ _ stopped => by cases stopped)
      leads
  | succ links inductionHypothesis =>
    exact kept_walkUpToLink rooted rootedAfter extend standing
      (fun _ _ goesOn => inductionHypothesis (.inl rfl) goesOn) leads

theorem kept_find {path : Path} {spot : Spot} (rooted : tree.Rooted) (rootedAfter : after.Rooted)
    (extend : tree.Extends after) (leads : tree.find path = .ok spot) :
    spot.Kept tree (after.find path) :=
  kept_walk rooted rootedAfter extend (.inl rfl) leads

/-! ### New entries -/

/-- An entry at a free place hides no other one. -/
theorem extends_enter {place : Path} (free : tree.entryAt place = none) (entry : Entry) :
    tree.Extends (tree.enter place entry) := by
  intro other known listed
  have different : other ≠ place := by
    rintro rfl
    cases free.symm.trans listed
  show ((place, entry) :: tree.entries).lookup other = _
  rw [List.lookup_cons, beq_false_of_ne different]
  exact listed

/-- An entry may be made at any free place of a directory. -/
theorem Rooted.enter (rooted : tree.Rooted) {place : Path} (free : tree.entryAt place = none)
    (notTop : place ≠ .top) (standing : tree.Standing place.parent) (entry : Entry) :
    (tree.enter place entry).Rooted := by
  intro other known listed
  have extend := extends_enter free entry
  by_cases new : other = place
  · subst new
    exact ⟨notTop, standing.extends extend⟩
  · have before : tree.entryAt other = some known := by
      refine Eq.trans ?_ listed
      show _ = ((place, entry) :: tree.entries).lookup other
      rw [List.lookup_cons, beq_false_of_ne new]
      rfl
    obtain ⟨below, parent⟩ := rooted other known before
    exact ⟨below, parent.extends extend⟩

theorem rooted_empty : empty.Rooted :=
  fun _ _ listed => by cases listed

/-- What was found to be free is not listed, and it is in a directory. -/
theorem free_of_find {path place : Path} (rooted : tree.Rooted)
    (leads : tree.find path = .ok (.free place)) :
    tree.entryAt place = none ∧ place ≠ .top ∧ tree.Standing place.parent :=
  ⟨listed_of_walk leads, kept_find rooted rooted (.refl tree) leads⟩

theorem extends_makeOneDirectory (rooted : tree.Rooted) (path : Path) :
    (tree.makeOneDirectory path).Rooted ∧ tree.Extends (tree.makeOneDirectory path) := by
  unfold makeOneDirectory
  split
  · next place leads =>
    obtain ⟨free, notTop, standing⟩ := free_of_find rooted leads
    exact ⟨rooted.enter free notTop standing _, extends_enter free _⟩
  · exact ⟨rooted, .refl tree⟩

/-- A path of directories is made one by one, each in the one before. -/
theorem extends_makeDirectory (rooted : tree.Rooted) (path : Path) :
    (tree.makeDirectory path).Rooted ∧ tree.Extends (tree.makeDirectory path) := by
  unfold makeDirectory
  induction path.steps generalizing tree with
  | nil => exact ⟨rooted, .refl tree⟩
  | cons step steps inductionHypothesis =>
    obtain ⟨rootedStep, extendStep⟩ := extends_makeOneDirectory rooted step
    obtain ⟨rootedLast, extendLast⟩ := inductionHypothesis rootedStep
    exact ⟨rootedLast, extendStep.trans extendLast⟩

theorem contents_makeDirectory (tree : FileTree) (path : Path) :
    (tree.makeDirectory path).contents = tree.contents := by
  unfold makeDirectory
  induction path.steps generalizing tree with
  | nil => rfl
  | cons step steps inductionHypothesis =>
    refine (inductionHypothesis _).trans ?_
    unfold makeOneDirectory
    split <;> rfl

/-! ### Writing -/

/-- Writing lists at most a new file, and its directories. -/
theorem extends_write (rooted : tree.Rooted) (path : Path) (change : List UInt8 → List UInt8)
    (modified : Int) :
    (tree.write path change modified).Rooted ∧ tree.Extends (tree.write path change modified) := by
  obtain ⟨made, extend⟩ := extends_makeDirectory rooted path.parent
  unfold write
  simp only
  split
  · exact ⟨made, extend⟩
  · next place leads =>
    obtain ⟨free, notTop, standing⟩ := free_of_find made leads
    exact ⟨made.enter free notTop standing _, extend.trans (extends_enter free _)⟩
  · exact ⟨made, extend⟩

/-- Where a change keeps the bytes at the front, files keep what they hold at their front. -/
theorem lookup_write (sound : tree.Sound) (path : Path) {change : List UInt8 → List UInt8}
    (longer : ∀ bytes, bytes <+: change bytes) (modified : Int) {id : FileId} {contents : Contents}
    (found : tree.contents.lookup id = some contents) :
    ∃ changed, (tree.write path change modified).contents.lookup id = some changed ∧
      contents.bytes <+: changed.bytes := by
  have soundMade := sound.makeDirectory path.parent
  have foundMade : (tree.makeDirectory path.parent).contents.lookup id = some contents := by
    rw [contents_makeDirectory, found]
  unfold write
  simp only
  split
  · next place written leads =>
    by_cases same : id = written
    · subst same
      refine ⟨_, lookup_setContents_self _ _ _, ?_⟩
      rw [contentsOf, foundMade]
      exact longer contents.bytes
    · exact ⟨contents, (lookup_setContents_of_ne same _ _).trans foundMade, List.prefix_refl _⟩
  · next place leads =>
    refine ⟨contents, (lookup_setContents_of_ne ?_ _ _).trans foundMade, List.prefix_refl _⟩
    rintro rfl
    cases foundMade.symm.trans (soundMade.fresh _ (Nat.le_refl _))
  · exact ⟨contents, foundMade, List.prefix_refl _⟩

end NodeTelemetry.FileTree
