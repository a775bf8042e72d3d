import Mathlib.Data.List.Induction
import SourceMarkup.Disk.Basic
import SourceMarkup.Proofs.Disk.Path

/-!
# Walks through a disk

A path names a place whether or not there is a way to it, and it leads through the places
that its first names lead to. A walk along a path succeeds if there is a folder wherever it
goes on. On a disk nothing lies in what is missing, so whatever is missing on the way is
missing at the end, unless the path goes back out of it.
-/

namespace SourceMarkup

namespace Disk

variable {disk : Disk} {path : Path} {location folder : Location}

/-! ### Places -/

def start (disk : Disk) (path : Path) : Location :=
  if path.isAbsolute then [] else disk.current

/-- The place that a path names, whether or not there is a way to it. -/
def place (disk : Disk) (path : Path) : Location :=
  (Text.splitOn '/' path).foldl enter (disk.start path)

/-- The first names of a path lead to a place. -/
def Passes (disk : Disk) (path : Path) (location : Location) : Prop :=
  ∃ front back, Text.splitOn '/' path = front ++ back ∧
    front.foldl enter (disk.start path) = location

/-- A path leads to a place and from there back to the folder above. -/
def BacksOutOf (disk : Disk) (path : Path) (location : Location) : Prop :=
  ∃ front back, Text.splitOn '/' path = front ++ ['.', '.'] :: back ∧
    front.foldl enter (disk.start path) = location

theorem enter_of_not_leads {name : Text} (h : Path.leads name = false) :
    enter location name = location := by
  rw [Path.leads, Bool.not_eq_false', Bool.or_eq_true, beq_iff_eq, beq_iff_eq] at h
  rw [enter, if_pos h]

theorem enter_cases (location : Location) (name : Text) :
    enter location name = location ∨
      (name = ['.', '.'] ∧ enter location name = location.dropLast) ∨
      enter location name = location ++ [name] := by
  rw [enter]
  split
  · exact .inl rfl
  · split
    · next hup => exact .inr (.inl ⟨hup, rfl⟩)
    · exact .inr (.inr rfl)

theorem foldl_enter_filter (location : Location) (names : List Text) :
    (names.filter Path.leads).foldl enter location = names.foldl enter location := by
  induction names generalizing location with
  | nil => rfl
  | cons name names ih =>
      cases h : Path.leads name with
      | true => rw [List.filter_cons_of_pos h, List.foldl_cons, List.foldl_cons, ih]
      | false =>
          rw [List.filter_cons_of_neg (by simp [h]), List.foldl_cons, enter_of_not_leads h, ih]

/-- A path leads through the places of the paths that its first parts make. -/
theorem passes_of_parts {front : Path} (habsolute : front.isAbsolute = path.isAbsolute)
    (hparts : front.parts <+: path.parts) : disk.Passes path (disk.place front) := by
  obtain ⟨rest, hrest⟩ := hparts
  obtain ⟨names, names', hnames, hfront, -⟩ := List.filter_eq_append_iff.1 hrest.symm
  refine ⟨names, names', hnames, ?_⟩
  rw [place, ← foldl_enter_filter, ← foldl_enter_filter _ (Text.splitOn '/' front), hfront,
    start, start, habsolute]
  rfl

theorem prefix_dropLast (hwithin : folder <+: location) (hne : location ≠ folder) :
    folder <+: location.dropLast := by
  obtain ⟨rest, rfl⟩ := hwithin
  have hrest : rest ≠ [] := by
    rintro rfl
    exact hne (List.append_nil _)
  rw [List.dropLast_append_of_ne_nil hrest]
  exact List.prefix_append _ _

/-- Names that never lead back out of a folder stay in it. -/
theorem prefix_foldl_enter {names : List Text} (hwithin : folder <+: location)
    (hback : ∀ front back, names = front ++ ['.', '.'] :: back →
      front.foldl enter location ≠ folder) :
    folder <+: names.foldl enter location := by
  induction names generalizing location with
  | nil => exact hwithin
  | cons name names ih =>
      refine ih ?_ fun front back hsplit => hback (name :: front) back (by rw [hsplit]; rfl)
      rcases enter_cases location name with h | ⟨rfl, h⟩ | h
      · rwa [h]
      · have hne : location ≠ folder := hback [] names rfl
        rw [h]
        exact prefix_dropLast hwithin hne
      · rw [h]
        exact hwithin.trans (List.prefix_append _ _)

/-! ### Walks -/

theorem walk_eq_ok_iff {names : List Text} :
    disk.walk location names = .ok folder ↔
      names.foldl enter location = folder ∧ ∀ front name back, names = front ++ name :: back →
        disk.entry? (front.foldl enter location) = some .folder := by
  induction names generalizing location with
  | nil => simp [walk]
  | cons name names ih =>
      by_cases hfolder : disk.entry? location = some .folder
      · simp only [walk, hfolder, ih, List.foldl_cons]
        refine and_congr_right fun _ => ⟨fun h front name' back hsplit => ?_, fun h => ?_⟩
        · cases front with
          | nil => exact hfolder
          | cons first front =>
              obtain ⟨rfl, hrest⟩ := List.cons.inj hsplit
              exact h front name' back hrest
        · intro front name' back hsplit
          exact h (name :: front) name' back (by rw [hsplit]; rfl)
      · refine ⟨fun h => ?_, fun h => absurd (h.2 [] name names rfl) hfolder⟩
        rw [walk] at h
        split at h
        · contradiction
        · contradiction
        · next hentry => exact absurd hentry hfolder

theorem locate_eq_ok_iff :
    disk.locate path = .ok location ↔
      path ≠ [] ∧ disk.place path = location ∧
        ∀ front name back, Text.splitOn '/' path = front ++ name :: back →
          disk.entry? (front.foldl enter (disk.start path)) = some .folder := by
  rw [locate, place, ← start]
  split
  · next h => simp [h]
  · next h =>
      rw [walk_eq_ok_iff]
      exact (and_iff_right h).symm

def follow (disk : Disk) (location : Location) (names : List Text) : Except DiskError Entry :=
  (disk.walk location names).bind fun location =>
    match disk.entry? location with
    | none => .error .notFound
    | some entry => .ok entry

theorem stat_eq_follow (hpath : path ≠ []) :
    disk.stat path = disk.follow (disk.start path) (Text.splitOn '/' path) := by
  rw [stat, locate, if_neg hpath]
  rfl

theorem follow_nil (disk : Disk) (location : Location) :
    disk.follow location [] =
      match disk.entry? location with
      | none => .error .notFound
      | some entry => .ok entry :=
  rfl

theorem follow_of_missing (h : disk.entry? location = none) (names : List Text) :
    disk.follow location names = .error .notFound := by
  cases names with
  | nil =>
      rw [follow_nil, h]
  | cons name names =>
      rw [follow, walk]
      simp only [Except.bind, h]

theorem follow_cons_of_file {content : List UInt8}
    (h : disk.entry? location = some (.file content)) (name : Text) (names : List Text) :
    disk.follow location (name :: names) = .error .notFolder := by
  rw [follow, walk]
  simp only [h]
  rfl

theorem follow_cons_of_folder (h : disk.entry? location = some .folder) (name : Text)
    (names : List Text) :
    disk.follow location (name :: names) = disk.follow (enter location name) names := by
  rw [follow, walk]
  simp only [h]
  rfl

/-! ### Trees -/

theorem entry?_of_ne_nil (h : location ≠ []) :
    disk.entry? location = disk.entries.lookup location :=
  if_neg h

def IsTree (disk : Disk) : Prop :=
  ∀ location name, disk.entry? (location ++ [name]) ≠ none →
    disk.entry? location = some .folder

theorem isTree_of_entries
    (h : ∀ entry ∈ disk.entries, disk.entry? entry.1.dropLast = some .folder) :
    disk.IsTree := by
  intro location name hentry
  rw [entry?_of_ne_nil (List.append_ne_nil_of_right_ne_nil _ (List.cons_ne_nil _ _))] at hentry
  rw [Ne, List.lookup_eq_none_iff, not_forall] at hentry
  obtain ⟨⟨place, entry⟩, hentry⟩ := hentry
  obtain ⟨hmem, hplace⟩ : (place, entry) ∈ disk.entries ∧ location ++ [name] = place := by
    simpa using hentry
  have hfolder := h _ hmem
  rwa [← hplace, List.dropLast_concat] at hfolder

/-- Nothing lies in what is missing. -/
theorem IsTree.entry?_eq_none (h : disk.IsTree) (hwithin : folder <+: location)
    (hfolder : disk.entry? folder = none) : disk.entry? location = none := by
  obtain ⟨names, rfl⟩ := hwithin
  induction names using List.reverseRecOn with
  | nil => rwa [List.append_nil]
  | append_singleton names name ih =>
      by_contra hentry
      rw [← List.append_assoc] at hentry
      rw [h _ _ hentry] at ih
      contradiction

/-- A path never leads back out of what is missing. -/
def Straight (disk : Disk) (path : Path) : Prop :=
  ∀ location, disk.BacksOutOf path location → disk.entry? location ≠ none

theorem straight_of_not_mem (h : ['.', '.'] ∉ Text.splitOn '/' path) : disk.Straight path := by
  rintro location ⟨front, back, hsplit, -⟩
  exact absurd (hsplit ▸ List.mem_append_right front List.mem_cons_self) h

theorem Straight.prefix_place (h : disk.Straight path) (hpasses : disk.Passes path folder)
    (hfolder : disk.entry? folder = none) : folder <+: disk.place path := by
  obtain ⟨front, back, hsplit, rfl⟩ := hpasses
  rw [place, hsplit, List.foldl_append]
  refine prefix_foldl_enter List.prefix_rfl fun front' back' hback hplace => ?_
  refine h _ ⟨front ++ front', back', ?_, ?_⟩ hfolder
  · rw [hsplit, hback, List.append_assoc]
  · rw [List.foldl_append, hplace]

end Disk

end SourceMarkup
