import SourceMarkup.Proofs.Disk.Walk

/-!
# Folders made on a disk

A change that puts something where nothing was leaves all else as it is. Making a folder at
a path and the folders that it lies in is a row of such changes, all of them at places that
the path leads through, and whether or not it succeeds. A disk that was a tree stays one,
as a walk only ever ends in a folder.
-/

namespace SourceMarkup

namespace Disk

variable {disk made after : Disk} {path : Path} {location folder : Location}

/-! ### What stays -/

structure Keeps (disk after : Disk) : Prop where
  current : after.current = disk.current
  entry : ∀ {location}, disk.entry? location ≠ none →
    after.entry? location = disk.entry? location

namespace Keeps

theorem refl (disk : Disk) : disk.Keeps disk :=
  ⟨rfl, fun _ => rfl⟩

theorem trans (h : disk.Keeps made) (h' : made.Keeps after) : disk.Keeps after where
  current := h'.current.trans h.current
  entry hentry := by
    have hmade := h.entry hentry
    rw [h'.entry (by rwa [hmade]), hmade]

theorem start_eq (h : disk.Keeps after) (path : Path) : after.start path = disk.start path := by
  rw [start, start, h.current]

theorem place_eq (h : disk.Keeps after) (path : Path) : after.place path = disk.place path := by
  rw [place, place, h.start_eq]

theorem passes_iff (h : disk.Keeps after) :
    after.Passes path location ↔ disk.Passes path location := by
  rw [Passes, Passes, h.start_eq]

theorem entry?_folder (h : disk.Keeps after) (hfolder : disk.entry? location = some .folder) :
    after.entry? location = some .folder := by
  rw [h.entry (by rw [hfolder]; exact Option.some_ne_none _), hfolder]

theorem locate_eq_ok (h : disk.Keeps after) (hlocate : disk.locate path = .ok location) :
    after.locate path = .ok location := by
  obtain ⟨hpath, hplace, hfolders⟩ := locate_eq_ok_iff.1 hlocate
  refine locate_eq_ok_iff.2 ⟨hpath, (h.place_eq path).trans hplace, ?_⟩
  intro front name back hsplit
  rw [h.start_eq]
  exact h.entry?_folder (hfolders front name back hsplit)

theorem straight (h : disk.Keeps after) (hstraight : disk.Straight path) :
    after.Straight path := by
  intro location hback
  rw [BacksOutOf, h.start_eq] at hback
  have hentry := hstraight location hback
  rwa [h.entry hentry]

end Keeps

/-! ### Entries that are added -/

theorem lookup_filter_ne (entries : List (Location × Entry)) {other : Location}
    (h : other ≠ location) :
    (entries.filter fun e => e.1 != location).lookup other = entries.lookup other := by
  induction entries with
  | nil => rfl
  | cons e entries ih =>
      obtain ⟨place, entry⟩ := e
      by_cases hplace : place = location
      · subst hplace
        rw [List.filter_cons_of_neg (by simp), List.lookup_cons, beq_false_of_ne h, ih]
      · rw [List.filter_cons_of_pos (by simpa using hplace), List.lookup_cons, List.lookup_cons, ih]

theorem entry?_put {entry : Entry} (hlocation : location ≠ []) (other : Location) :
    entry? (disk.put location entry) other =
      if other = location then some entry else disk.entry? other := by
  by_cases hother : other = location
  · subst hother
    rw [if_pos rfl, entry?_of_ne_nil hlocation, put, List.lookup_cons_self]
  · rw [if_neg hother, entry?, put, List.lookup_cons, beq_false_of_ne hother,
      lookup_filter_ne _ hother]
    rfl

theorem ne_nil_of_entry?_eq_none (h : disk.entry? location = none) : location ≠ [] := by
  rintro rfl
  contradiction

theorem keeps_put {entry : Entry} (hfree : disk.entry? location = none) :
    disk.Keeps (disk.put location entry) where
  current := rfl
  entry {other} hentry := by
    rw [entry?_put (ne_nil_of_entry?_eq_none hfree), if_neg]
    rintro rfl
    exact hentry hfree

theorem IsTree.put {name : Text} {entry : Entry} (h : disk.IsTree)
    (hfolder : disk.entry? folder = some .folder)
    (hfree : disk.entry? (folder ++ [name]) = none) :
    (disk.put (folder ++ [name]) entry).IsTree := by
  intro location name' hentry
  refine (keeps_put hfree).entry?_folder ?_
  rw [entry?_put (ne_nil_of_entry?_eq_none hfree)] at hentry
  split at hentry
  · next hsame =>
      obtain ⟨rfl, -⟩ := List.append_inj' hsame rfl
      exact hfolder
  · exact h location name' hentry

/-- Where a walk ends and nothing is, there is a folder to put it in. -/
theorem IsTree.exists_folder (h : disk.IsTree) (hlocate : disk.locate path = .ok location)
    (hfree : disk.entry? location = none) :
    ∃ folder name, location = folder ++ [name] ∧ disk.entry? folder = some .folder := by
  obtain ⟨-, hplace, hfolders⟩ := locate_eq_ok_iff.1 hlocate
  rcases List.eq_nil_or_concat (Text.splitOn '/' path) with hnil | ⟨front, name, hsplit⟩
  · exact absurd hnil (Text.splitOn_ne_nil '/' path)
  · rw [List.concat_eq_append] at hsplit
    have hlast := hfolders front name [] hsplit
    rw [place, hsplit, List.foldl_append, List.foldl_cons, List.foldl_nil] at hplace
    -- Only a name that leads on gets to a place where nothing is.
    rcases enter_cases (front.foldl enter (disk.start path)) name with h' | ⟨-, h'⟩ | h'
    · rw [← hplace, h', hlast] at hfree
      contradiction
    · rw [h'] at hplace
      rcases List.eq_nil_or_concat (front.foldl enter (disk.start path)) with
        hroot | ⟨above, last, habove⟩
      · rw [hroot] at hplace
        exact absurd hplace.symm (ne_nil_of_entry?_eq_none hfree)
      · rw [List.concat_eq_append] at habove
        have hfolder := h above last (by rw [← habove, hlast]; exact Option.some_ne_none _)
        rw [habove, List.dropLast_concat] at hplace
        rw [← hplace, hfolder] at hfree
        contradiction
    · exact ⟨_, name, hplace.symm.trans h', hlast⟩

/-! ### Folders -/

/-- A disk has folders on the way along a path that another one has not, and nothing else
is different. -/
structure AddsFolders (path : Path) (disk after : Disk) : Prop extends Keeps disk after where
  added : ∀ {location}, disk.entry? location = none → after.entry? location ≠ none →
    after.entry? location = some .folder ∧ disk.Passes path location
  tree : disk.IsTree → after.IsTree

theorem AddsFolders.refl (path : Path) (disk : Disk) : AddsFolders path disk disk where
  toKeeps := .refl disk
  added hnone hentry := absurd hnone hentry
  tree := id

theorem AddsFolders.trans (h : AddsFolders path disk made) (h' : AddsFolders path made after) :
    AddsFolders path disk after where
  toKeeps := h.toKeeps.trans h'.toKeeps
  added {location} hnone hentry := by
    by_cases hmade : made.entry? location = none
    · obtain ⟨hfolder, hpasses⟩ := h'.added hmade hentry
      exact ⟨hfolder, h.passes_iff.1 hpasses⟩
    · rw [h'.entry hmade]
      exact h.added hnone hmade
  tree := h'.tree ∘ h.tree

theorem addsFolders_of_makeFolder {front : Path} (h : disk.makeFolder front = .ok after)
    (habsolute : front ≠ [] → front.isAbsolute = path.isAbsolute)
    (hparts : front.parts <+: path.parts) : AddsFolders path disk after := by
  rw [makeFolder] at h
  cases hlocate : disk.locate front.trimSlashes with
  | error e =>
      rw [hlocate] at h
      contradiction
  | ok location =>
      rw [hlocate] at h
      simp only [Except.bind] at h
      split at h
      · contradiction
      · next hfree =>
          obtain rfl := Except.ok.inj h
          have hlocation := ne_nil_of_entry?_eq_none hfree
          obtain ⟨hfront, hplace, -⟩ := locate_eq_ok_iff.1 hlocate
          refine ⟨keeps_put hfree, fun {other} hnone hentry => ?_, fun htree => ?_⟩
          · rw [entry?_put hlocation] at hentry ⊢
            split at hentry
            · next hother =>
                have hwithin := Path.trimSlashes_prefix front
                have hne : front ≠ [] := fun hnil => hfront (by rw [hnil]; rfl)
                rw [if_pos hother, hother, ← hplace]
                refine ⟨rfl, passes_of_parts ?_ ?_⟩
                · exact (Path.isAbsolute_of_prefix hwithin hfront).trans (habsolute hne)
                · rwa [Path.parts_trimSlashes]
            · contradiction
          · obtain ⟨folder, name, rfl, hfolder⟩ := htree.exists_folder hlocate hfree
            exact htree.put hfolder hfree

theorem addsFolders_of_ensureFolder {front : Path} (h : disk.ensureFolder front = .ok after)
    (habsolute : front ≠ [] → front.isAbsolute = path.isAbsolute)
    (hparts : front.parts <+: path.parts) : AddsFolders path disk after := by
  rw [ensureFolder] at h
  split at h
  · next hmade =>
      obtain rfl := Except.ok.inj h
      exact addsFolders_of_makeFolder hmade habsolute hparts
  · split at h
    · obtain rfl := Except.ok.inj h
      exact .refl path disk
    · contradiction

theorem addsFolders_once {ε : Type} {result : Except ε Disk}
    (h : ∀ after, result = .ok after → AddsFolders path disk after) :
    AddsFolders path disk (Attempt.once disk result).disk := by
  cases result with
  | error e => exact .refl path disk
  | ok after => exact h after rfl

theorem addsFolders_next {ε : Type} {attempt : Attempt ε} {further : Disk → Attempt ε}
    (h : AddsFolders path disk attempt.disk)
    (hfurther : ∀ disk, AddsFolders path disk (further disk).disk) :
    AddsFolders path disk (attempt.next further).disk := by
  rw [Attempt.next]
  split
  · exact h.trans (hfurther _)
  · exact h

theorem addsFolders_ensureFoldersFrom {front : Path} (fuel : Nat) (disk : Disk)
    (habsolute : front ≠ [] → front.isAbsolute = path.isAbsolute)
    (hparts : front.parts <+: path.parts) :
    AddsFolders path disk (ensureFoldersFrom fuel disk front).disk := by
  induction fuel generalizing front with
  | zero => exact .refl path disk
  | succ fuel ih =>
      have hensure : ∀ {disk after}, disk.ensureFolder front = .ok after →
          AddsFolders path disk after :=
        fun h => addsFolders_of_ensureFolder h habsolute hparts
      rw [ensureFoldersFrom]
      split
      · exact .refl path disk
      · next hfront =>
          split
          · next hmade => exact hensure hmade
          · split
            · exact .refl path disk
            · next parent hparent =>
                refine addsFolders_next (ih ?_ ?_) fun disk => ?_
                · intro hne
                  exact (Path.isAbsolute_of_prefix (Path.prefix_of_parent? hparent) hne).trans
                    (habsolute hfront)
                · exact (Path.parts_prefix_of_parent? hparent).trans hparts
                · exact addsFolders_once fun after h => hensure h
          · exact .refl path disk

end Disk

end SourceMarkup
