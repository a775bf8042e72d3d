import SourceMarkup.Config.File
import SourceMarkup.Proofs.Disk.Change

/-!
# Files saved on a disk

Saving a configuration makes folders on the way, and then it fails or writes the file. If
there was nothing at its path, the file is new, provided that the path is straight: a path
that goes back out of a missing folder leads nowhere, but once the folder is made it may
lead to a file. A path that keeps clear of a new file, of the folders above it and of what
would be below it leads to what it led to before.
-/

namespace SourceMarkup

namespace Disk

variable {disk made after : Disk} {path : Path} {location : Location}
  {content : List UInt8}

/-! ### Files -/

/-- A disk has a file that another one has not, in folders of which some are new, and
nothing else is different. -/
structure Gains (disk after : Disk) (location : Location) (content : List UInt8) : Prop
    extends Keeps disk after where
  free : disk.entry? location = none
  file : after.entry? location = some (.file content)
  folders : ∀ {other}, other ≠ location → disk.entry? other = none →
    after.entry? other ≠ none → after.entry? other = some .folder ∧ other <+: location

theorem write_eq_ok (h : disk.write path content = .ok after) :
    disk.locate path = .ok (disk.place path) ∧ disk.entry? (disk.place path) ≠ some .folder ∧
      after = disk.put (disk.place path) (.file content) := by
  rw [write] at h
  cases hlocate : disk.locate path.trimSlashes with
  | error e =>
      rw [hlocate] at h
      contradiction
  | ok location =>
      rw [hlocate] at h
      simp only [Except.bind] at h
      split at h
      · contradiction
      · next hwrite =>
          rw [not_or, not_not] at hwrite
          rw [hwrite.2] at hlocate
          obtain rfl := Except.ok.inj h
          obtain ⟨-, rfl, -⟩ := locate_eq_ok_iff.1 hlocate
          exact ⟨hlocate, hwrite.1, rfl⟩

/-- Where a straight path leads nowhere, but would with some folders more, nothing is. -/
theorem AddsFolders.entry?_place (h : AddsFolders path disk made) (htree : disk.IsTree)
    (hstraight : disk.Straight path) (hempty : disk.hasEntry path = false)
    (hlocate : made.locate path = .ok (made.place path)) :
    disk.entry? (disk.place path) = none := by
  by_contra hentry
  obtain ⟨hpath, -, hfolders⟩ := locate_eq_ok_iff.1 hlocate
  have hwalk : disk.locate path = .ok (disk.place path) := by
    refine locate_eq_ok_iff.2 ⟨hpath, rfl, fun front name back hsplit => ?_⟩
    have hfolder := hfolders front name back hsplit
    rw [h.start_eq] at hfolder
    by_cases hfront : disk.entry? (front.foldl enter (disk.start path)) = none
    · have hpasses : disk.Passes path _ := ⟨front, name :: back, hsplit, rfl⟩
      have hwithin := hstraight.prefix_place hpasses hfront
      exact absurd (htree.entry?_eq_none hwithin hfront) hentry
    · rwa [← h.entry hfront]
  obtain ⟨entry, hsome⟩ := Option.ne_none_iff_exists'.1 hentry
  rw [hasEntry, stat, hwalk] at hempty
  simp only [Except.bind, hsome] at hempty
  contradiction

theorem read_of_entry? (hlocate : disk.locate path = .ok location)
    (hfile : disk.entry? location = some (.file content)) : disk.read path = .ok content := by
  rw [read, stat, hlocate]
  simp only [Except.bind, hfile]

/-- Writing to a straight path that led nowhere before its folders were made. -/
theorem AddsFolders.gains (h : AddsFolders path disk made) (htree : disk.IsTree)
    (hstraight : disk.Straight path) (hempty : disk.hasEntry path = false)
    (hwrite : made.write path content = .ok after) :
    disk.Gains after (disk.place path) content ∧ after.IsTree ∧
      after.read path = .ok content := by
  obtain ⟨hlocate, hnot, rfl⟩ := write_eq_ok hwrite
  have hnone := h.entry?_place htree hstraight hempty hlocate
  rw [h.place_eq] at hlocate hnot ⊢
  have hmade : made.entry? (disk.place path) = none := by
    by_contra hentry
    exact hnot (h.added hnone hentry).1
  have hkeeps : made.Keeps (made.put (disk.place path) (.file content)) := keeps_put hmade
  have hput : ∀ other, entry? (made.put (disk.place path) (.file content)) other =
      if other = disk.place path then some (.file content) else made.entry? other :=
    entry?_put (ne_nil_of_entry?_eq_none hmade)
  have hfile := (hput (disk.place path)).trans (if_pos rfl)
  refine ⟨⟨h.toKeeps.trans hkeeps, hnone, hfile, ?_⟩, ?_, ?_⟩
  · intro other hother hfree hentry
    rw [hput, if_neg hother] at hentry ⊢
    obtain ⟨hfolder, hpasses⟩ := h.added hfree hentry
    exact ⟨hfolder, hstraight.prefix_place hpasses hfree⟩
  · obtain ⟨folder, name, hsplit, hfolder⟩ := (h.tree htree).exists_folder hlocate hmade
    rw [hsplit] at hmade ⊢
    exact (h.tree htree).put hfolder hmade
  · exact read_of_entry? (hkeeps.locate_eq_ok hlocate) hfile

/-! ### Paths that keep clear -/

/-- A path names neither a location nor a folder above it nor anything below it, not even
to go back out of it when it is missing. -/
structure KeepsClear (disk : Disk) (path : Path) (location : Location) : Prop where
  above : ¬ disk.place path <+: location
  below : ¬ location <+: disk.place path
  back : ∀ {folder}, disk.BacksOutOf path folder → folder <+: location →
    disk.entry? folder ≠ none

theorem Gains.entry?_eq (h : disk.Gains after location content) {other : Location}
    (hother : ¬ other <+: location) : after.entry? other = disk.entry? other := by
  by_cases hnone : disk.entry? other = none
  · rw [hnone]
    by_contra hentry
    have hne : other ≠ location := by
      rintro rfl
      exact hother List.prefix_rfl
    exact hother (h.folders hne hnone hentry).2
  · exact h.entry hnone

/-- A gain makes no difference to names that keep clear of it. The induction is on the
names: where there is a new folder, the next name leads to what was missing before. -/
theorem Gains.follow_eq (h : disk.Gains after location content) (htree : disk.IsTree)
    {place : Location} {names : List Text}
    (habove : ¬ names.foldl enter place <+: location)
    (hbelow : ¬ location <+: names.foldl enter place)
    (hback : ∀ front back, names = front ++ ['.', '.'] :: back →
      front.foldl enter place <+: location → disk.entry? (front.foldl enter place) ≠ none) :
    after.follow place names = disk.follow place names := by
  induction names generalizing place with
  | nil =>
      have hplace : ¬ place <+: location := habove
      rw [follow_nil, follow_nil, h.entry?_eq hplace]
  | cons name names ih =>
      have hrest : after.follow (enter place name) names = disk.follow (enter place name) names :=
        ih habove hbelow fun front back hsplit =>
          hback (name :: front) back (by rw [hsplit]; rfl)
      by_cases hnone : disk.entry? place = none
      · rw [follow_of_missing hnone]
        by_cases hafter : after.entry? place = none
        · exact follow_of_missing hafter _
        · have hne : place ≠ location := by
            rintro rfl
            refine hbelow (prefix_foldl_enter List.prefix_rfl fun front back hsplit hplace => ?_)
            have hback' := hback front back hsplit
            rw [hplace] at hback'
            exact hback' List.prefix_rfl hnone
          obtain ⟨hfolder, hwithin⟩ := h.folders hne hnone hafter
          have hmissing : disk.entry? (enter place name) = none := by
            rcases enter_cases place name with henter | ⟨rfl, -⟩ | henter
            · rwa [henter]
            · exact absurd hnone (hback [] names rfl hwithin)
            · rw [henter]
              exact htree.entry?_eq_none (List.prefix_append _ _) hnone
          rw [follow_cons_of_folder hfolder, hrest, follow_of_missing hmissing]
      · have hentry := h.entry hnone
        cases hplace : disk.entry? place with
        | none => contradiction
        | some entry =>
            rw [hplace] at hentry
            cases entry with
            | file bytes => rw [follow_cons_of_file hentry, follow_cons_of_file hplace]
            | folder => rw [follow_cons_of_folder hentry, follow_cons_of_folder hplace, hrest]

theorem Gains.stat_eq (h : disk.Gains after location content) (htree : disk.IsTree)
    (hclear : disk.KeepsClear path location) : after.stat path = disk.stat path := by
  by_cases hpath : path = []
  · subst hpath
    rfl
  · rw [stat_eq_follow hpath, stat_eq_follow hpath, h.start_eq]
    exact h.follow_eq htree hclear.above hclear.below
      fun front back hsplit => hclear.back ⟨front, back, hsplit, rfl⟩

theorem Gains.readText_eq (h : disk.Gains after location content) (htree : disk.IsTree)
    (hclear : disk.KeepsClear path location) : after.readText path = disk.readText path := by
  rw [readText, readText, read, read, h.stat_eq htree hclear]

/-! ### Files alone -/

def file? (disk : Disk) (location : Location) : Option (List UInt8) :=
  match disk.entry? location with
  | some (.file content) => some content
  | _ => none

theorem file?_eq_some_iff :
    disk.file? location = some content ↔ disk.entry? location = some (.file content) := by
  rw [file?]
  split
  · next h => rw [h, Option.some.injEq, Option.some.injEq, Entry.file.injEq]
  · next h => exact ⟨fun hnone => by contradiction, fun hfile => absurd hfile (h content)⟩

theorem Keeps.file?_eq_some (h : disk.Keeps after) (hfile : disk.file? location = some content) :
    after.file? location = some content := by
  rw [file?_eq_some_iff] at hfile ⊢
  rw [h.entry (by rw [hfile]; exact Option.some_ne_none _), hfile]

theorem AddsFolders.file?_eq (h : AddsFolders path disk after) : after.file? = disk.file? := by
  funext location
  rw [file?, file?]
  by_cases hnone : disk.entry? location = none
  · by_cases hafter : after.entry? location = none
    · rw [hafter, hnone]
    · rw [(h.added hnone hafter).1, hnone]
  · rw [h.entry hnone]

theorem Gains.file?_eq (h : disk.Gains after location content) :
    after.file? = Function.update disk.file? location (some content) := by
  funext other
  by_cases hother : other = location
  · subst hother
    rw [Function.update_self, file?_eq_some_iff, h.file]
  · rw [Function.update_of_ne hother, file?, file?]
    by_cases hnone : disk.entry? other = none
    · by_cases hafter : after.entry? other = none
      · rw [hafter, hnone]
      · rw [(h.folders hother hnone hafter).1, hnone]
    · rw [h.entry hnone]

end Disk

/-! ### Saving -/

namespace Config

open Disk

variable {config : Config} {disk : Disk} {path : Path}

theorem addsFolders_ensureParent (disk : Disk) (path : Path) :
    AddsFolders path disk (ensureParent disk path).disk := by
  rw [ensureParent]
  split
  · exact .refl path disk
  · next parent hparent =>
      refine addsFolders_ensureFoldersFrom _ disk (fun hne => ?_) ?_
      · exact Path.isAbsolute_of_prefix (Path.prefix_of_parent? hparent) hne
      · exact Path.parts_prefix_of_parent? hparent

/-- Saving makes folders on the way, and fails or writes the file after that. -/
theorem save_cases (config : Config) (disk : Disk) (path : Path) :
    (∃ error, (config.save disk path).error? = some error ∧
      AddsFolders path disk (config.save disk path).disk) ∨
    ((config.save disk path).error? = none ∧ ∃ made, AddsFolders path disk made ∧
      made.write path (Text.toBytes config.toText) = .ok (config.save disk path).disk) := by
  have hmade := addsFolders_ensureParent disk path
  rw [save, Attempt.next]
  split
  · next hparent =>
      cases hwrite : (ensureParent disk path).disk.write path (Text.toBytes config.toText) with
      | error e => exact .inl ⟨_, rfl, hmade⟩
      | ok after => exact .inr ⟨rfl, _, hmade, hwrite⟩
  · next e hparent => exact .inl ⟨e, hparent, hmade⟩

end Config

end SourceMarkup
