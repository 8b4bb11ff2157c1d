/-
This file shows that identities are in order in every tree that the changes make: each file that is
listed holds something, no directory does, and what the next file is going to be called belongs to
nothing yet. So it is the files of such a tree that can be read.

All changes of a tree are put together from a few: taking entries away, listing a directory or a
link, listing a new file with what it holds, and changing what a listed file holds. Each of these
keeps identities in order. A new file or directory takes the next identity, which by the invariant
belongs to nothing, and the one behind it becomes the next. Entries that are moved keep their
identities, so nothing that was in order is disturbed.
-/

import NodeTelemetry.Files.Change
import NodeTelemetry.Proofs.Files.Newest

namespace NodeTelemetry.FileTree

variable {tree : FileTree}

/-! ### Contents -/

theorem lookup_setContents_self (tree : FileTree) (id : FileId) (contents : Contents) :
    (tree.setContents id contents).contents.lookup id = some contents :=
  List.lookup_cons_self

theorem lookup_filter_of_ne {id other : FileId} (different : other ≠ id)
    (contents : List (FileId × Contents)) :
    (contents.filter (·.1 != id)).lookup other = contents.lookup other := by
  induction contents with
  | nil => rfl
  | cons entry others inductionHypothesis =>
    obtain ⟨known, content⟩ := entry
    by_cases same : known = id
    · subst same
      rw [List.filter_cons_of_neg (by simp), inductionHypothesis, List.lookup_cons,
        beq_false_of_ne different]
    · rw [List.filter_cons_of_pos (by simpa using same), List.lookup_cons, List.lookup_cons,
        inductionHypothesis]

/-- What is set for one identity changes nothing for another one. -/
theorem lookup_setContents_of_ne {id other : FileId} (different : other ≠ id) (tree : FileTree)
    (contents : Contents) :
    (tree.setContents id contents).contents.lookup other = tree.contents.lookup other := by
  show ((id, contents) :: tree.contents.filter (·.1 != id)).lookup other = _
  rw [List.lookup_cons, beq_false_of_ne different]
  exact lookup_filter_of_ne different tree.contents

/-! ### Identities in order -/

/-- Whether the identities in a tree are in order. -/
structure Sound (tree : FileTree) : Prop where
  file : ∀ place id, (place, Entry.file id) ∈ tree.entries →
    (tree.contents.lookup id).isSome = true
  directory : ∀ place id, (place, Entry.directory id) ∈ tree.entries →
    tree.contents.lookup id = none ∧ id < tree.nextId
  top : tree.contents.lookup 0 = none
  nextId_pos : 0 < tree.nextId
  fresh : ∀ id, tree.nextId ≤ id → tree.contents.lookup id = none

theorem sound_empty : empty.Sound where
  file := fun _ _ member => by cases member
  directory := fun _ _ member => by cases member
  top := rfl
  nextId_pos := Nat.one_pos
  fresh := fun _ _ => rfl

namespace Sound

/-- A tree in which nothing else is listed and the contents are the same stays in order. -/
theorem relist (sound : tree.Sound) (entries : List (Path × Entry))
    (listed : ∀ entry ∈ entries, ∃ place, (place, entry.2) ∈ tree.entries) :
    Sound { tree with entries := entries } where
  file := fun place id member => by
    obtain ⟨before, present⟩ := listed _ member
    exact sound.file before id present
  directory := fun place id member => by
    obtain ⟨before, present⟩ := listed _ member
    exact sound.directory before id present
  top := sound.top
  nextId_pos := sound.nextId_pos
  fresh := sound.fresh

theorem clear (sound : tree.Sound) (place : Path) : (tree.clear place).Sound :=
  sound.relist _ fun entry member => ⟨entry.1, (List.mem_filter.mp member).1⟩

/-- A link or a directory with the next identity may be listed. -/
theorem enter (sound : tree.Sound) (place : Path) {entry : Entry}
    (noFile : ∀ id, entry ≠ .file id)
    (newDirectory : ∀ id, entry = .directory id → id = tree.nextId) :
    (tree.enter place entry).Sound where
  file := fun at_ id member => by
    rcases List.mem_cons.mp member with new | old
    · exact absurd (congrArg Prod.snd new).symm (noFile id)
    · exact sound.file at_ id old
  directory := fun at_ id member => by
    rcases List.mem_cons.mp member with new | old
    · obtain rfl := newDirectory id (congrArg Prod.snd new).symm
      exact ⟨sound.fresh _ (Nat.le_refl _), Nat.lt_succ_self _⟩
    · obtain ⟨empty, known⟩ := sound.directory at_ id old
      exact ⟨empty, Nat.lt_succ_of_lt known⟩
  top := sound.top
  nextId_pos := Nat.succ_pos _
  fresh := fun id later => sound.fresh id (Nat.le_of_succ_le later)

/-- A new file takes the next identity together with what it holds. -/
theorem enterFile (sound : tree.Sound) (place : Path) (contents : Contents) :
    ((tree.enter place (.file tree.nextId)).setContents tree.nextId contents).Sound where
  file := fun at_ id member => by
    by_cases new : id = tree.nextId
    · rw [new, lookup_setContents_self]
      rfl
    · rw [lookup_setContents_of_ne new]
      rcases List.mem_cons.mp member with same | old
      · cases same
        exact absurd rfl new
      · exact sound.file at_ id old
  directory := fun at_ id member => by
    rcases List.mem_cons.mp member with new | old
    · cases new
    · obtain ⟨empty, known⟩ := sound.directory at_ id old
      rw [lookup_setContents_of_ne (Nat.ne_of_lt known)]
      exact ⟨empty, Nat.lt_succ_of_lt known⟩
  top := by
    rw [lookup_setContents_of_ne (Nat.ne_of_lt sound.nextId_pos)]
    exact sound.top
  nextId_pos := Nat.succ_pos _
  fresh := fun id later => by
    rw [lookup_setContents_of_ne (Nat.ne_of_gt later)]
    exact sound.fresh id (Nat.le_of_succ_le later)

theorem setContents (sound : tree.Sound) {id : FileId}
    (present : (tree.contents.lookup id).isSome = true) (contents : Contents) :
    (tree.setContents id contents).Sound := by
  have other {nothing : FileId} (empty : tree.contents.lookup nothing = none) : nothing ≠ id := by
    rintro rfl
    rw [empty] at present
    cases present
  exact {
    file := fun place known member => by
      by_cases same : known = id
      · rw [same, lookup_setContents_self]
        rfl
      · rw [lookup_setContents_of_ne same]
        exact sound.file place known member
    directory := fun place known member => by
      obtain ⟨empty, bound⟩ := sound.directory place known member
      exact ⟨(lookup_setContents_of_ne (other empty) tree contents).trans empty, bound⟩
    top := (lookup_setContents_of_ne (other sound.top) tree contents).trans sound.top
    nextId_pos := sound.nextId_pos
    fresh := fun known later =>
      (lookup_setContents_of_ne (other (sound.fresh known later)) tree contents).trans
        (sound.fresh known later) }

end Sound

/-! ### Where a path leads -/

theorem mem_of_entryAt {place : Path} {entry : Entry} (listed : tree.entryAt place = some entry) :
    (place, entry) ∈ tree.entries := by
  obtain ⟨before, after, split, _⟩ := List.lookup_eq_some_iff.mp listed
  rw [split]
  exact List.mem_append_right _ List.mem_cons_self

/-- Whether what was found is what is listed. -/
def Spot.Listed (tree : FileTree) (spot : Spot) : Prop :=
  match spot with
  | .file place id => tree.entryAt place = some (.file id)
  | .directory place id => id = tree.directoryId place
  | .free place => tree.entryAt place = none

/-- A way up to its first link leads to what is listed, if what follows the link does. -/
theorem listed_of_walkUpToLink {goOn : List String → Except Fault Spot} {place : Path}
    {names : List String} {spot : Spot}
    (further : ∀ names spot, goOn names = .ok spot → spot.Listed tree)
    (leads : tree.walkUpToLink goOn place names = .ok spot) : spot.Listed tree := by
  fun_induction walkUpToLink tree goOn place names with
  | case1 =>
    obtain rfl := Except.ok.inj leads
    rfl
  | case2 | case6 =>
    next inductionHypothesis => exact inductionHypothesis leads
  | case3 | case5 | case8 => cases leads
  | case4 place name rest _ _ nothing last =>
    obtain rfl := Except.ok.inj leads
    exact nothing
  | case7 place name rest _ _ id listed last =>
    obtain rfl := Except.ok.inj leads
    exact listed
  | case9 => exact further _ _ leads

/-- A way through so many links leads to what is listed, or to a place where nothing is. -/
theorem listed_of_walk {links : Nat} {place : Path} {names : List String} {spot : Spot}
    (leads : tree.walk links place names = .ok spot) : spot.Listed tree := by
  induction links generalizing place names spot with
  | zero => exact listed_of_walkUpToLink (fun _ _ stopped => by cases stopped) leads
  | succ links inductionHypothesis =>
    exact listed_of_walkUpToLink (fun _ _ goesOn => inductionHypothesis goesOn) leads

/-- Where identities are in order, it is the files that can be read. -/
theorem Sound.readable (sound : tree.Sound) : tree.Readable := by
  intro path status known
  unfold FileTree.status at known
  split at known
  · cases known
  · next spot leads =>
    have listed := listed_of_walk leads
    cases spot with
    | file place id =>
      obtain rfl := Except.ok.inj known
      exact sound.file place id (mem_of_entryAt listed)
    | directory place id =>
      obtain rfl := Except.ok.inj known
      have sameId : id = tree.directoryId place := listed
      have nothing : tree.contents.lookup id = none := by
        rw [sameId, directoryId]
        split
        · next other found => exact (sound.directory place other (mem_of_entryAt found)).1
        · exact sound.top
      show (tree.contents.lookup id).isSome = false
      rw [nothing]
      rfl
    | free place => cases known

/-! ### Changes -/

namespace Sound

theorem makeOneDirectory (sound : tree.Sound) (path : Path) :
    (tree.makeOneDirectory path).Sound := by
  unfold FileTree.makeOneDirectory
  split
  · exact sound.enter _ (fun _ => Entry.noConfusion) fun _ same => (Entry.directory.inj same).symm
  · exact sound

theorem makeDirectory (sound : tree.Sound) (path : Path) : (tree.makeDirectory path).Sound := by
  unfold FileTree.makeDirectory
  induction path.steps generalizing tree with
  | nil => exact sound
  | cons step steps inductionHypothesis => exact inductionHypothesis (sound.makeOneDirectory step)

theorem makeLink (sound : tree.Sound) (path target : Path) : (tree.makeLink path target).Sound := by
  have made := sound.makeDirectory path.parent
  unfold FileTree.makeLink
  simp only
  split
  · exact made
  · exact (made.clear _).enter _ (fun _ => Entry.noConfusion) fun _ => Entry.noConfusion

theorem remove (sound : tree.Sound) (path : Path) : (tree.remove path).Sound := by
  unfold FileTree.remove
  split
  · exact sound
  · exact sound.clear _

theorem rename (sound : tree.Sound) (source target : Path) : (tree.rename source target).Sound := by
  have made := (sound.makeDirectory target.parent).remove target
  unfold FileTree.rename
  simp only
  split
  · refine made.relist _ fun entry member => ?_
    obtain ⟨before, present, rfl⟩ := List.mem_map.mp member
    refine ⟨before.1, ?_⟩
    split
    · exact present
    · exact present
  · exact made

/-- Writing changes what a file holds, or makes a new one in directories that are made first. -/
theorem write (sound : tree.Sound) (path : Path) (change : List UInt8 → List UInt8)
    (modified : Int) : (tree.write path change modified).Sound := by
  have made := sound.makeDirectory path.parent
  unfold FileTree.write
  simp only
  split
  · next place id found =>
    exact made.setContents (made.file place id (mem_of_entryAt (listed_of_walk found))) _
  · exact made.enterFile _ _
  · exact made

theorem append (sound : tree.Sound) (path : Path) (bytes : List UInt8) (modified : Int) :
    (tree.append path bytes modified).Sound :=
  sound.write path _ modified

theorem replace (sound : tree.Sound) (path : Path) (bytes : List UInt8) (modified : Int) :
    (tree.replace path bytes modified).Sound := by
  have made := sound.makeDirectory path.parent
  unfold FileTree.replace
  simp only
  split
  · exact made
  · exact (made.clear _).enterFile _ _

end Sound

end NodeTelemetry.FileTree
