import Mathlib.Data.List.Forall2
import Mathlib.Data.List.Nodup
import SourceMarkup.Proofs.Text.Bytes
import SourceMarkup.Settings.Choice

/-!
# Spellings of choices

A choice is read from its name in any letter case. Letters are lowered as Unicode has it,
which takes some letters beyond ASCII to ASCII letters: the Kelvin sign becomes a `k`, and
the capital I with a dot an `i` with a combining dot. Yet ASCII letters alone tell what is
read, as no name holds a `k` or anything beyond ASCII.
-/

namespace SourceMarkup

namespace Text

/-- What is known of the lower case of a character: an ASCII character has its lower case
in ASCII, and that of any other character holds a character beyond ASCII, but that the
Kelvin sign becomes a `k`. -/
def IsLowered (c : Char) (lower : Text) : Prop :=
  if isBeyondAscii c then c = '\u212A' ∧ lower = ['k'] ∨ ∃ d ∈ lower, isBeyondAscii d
  else lower = [c.toLower]

theorem CaseRun.bounds {run : CaseRun} {n : Nat} (h : run.contains n = true) :
    run.first ≤ n ∧ n ≤ run.last := by
  simp only [contains, Bool.and_eq_true, decide_eq_true_eq] at h
  exact h.1

def capitals : CaseRun := ⟨0x41, 0x5A, 1, 32⟩

/-- The runs after the capitals lie beyond ASCII and stay there, but for the Kelvin sign,
and lead to no surrogates. -/
theorem lowerRuns_beyond : ∀ run ∈ lowerRuns.tail,
    128 ≤ run.first ∧
      ((run.first = 0x212A ∧ run.last = 0x212A ∧ run.offset = -8383) ∨
        128 ≤ run.first + run.offset ∧
          (run.last + run.offset < 0xD800 ∨
            0xDFFF < run.first + run.offset ∧ run.last + run.offset < 0x110000)) := by
  decide +kernel

theorem toLower_eq_capitals : ∀ n < 128, (Char.ofNat n).toLower =
    if capitals.contains n then Char.ofNat (capitals.image n) else Char.ofNat n := by
  decide

theorem mapByRuns_lower_ascii {c : Char} (hc : isBeyondAscii c = false) :
    mapByRuns lowerRuns c = c.toLower := by
  have hn : c.toNat < 128 := by simpa [isBeyondAscii] using hc
  have htail : lowerRuns.tail.find? (·.contains c.toNat) = none := by
    rw [List.find?_eq_none]
    intro run hrun hcontains
    have hfirst := (lowerRuns_beyond run hrun).1
    have hle := (CaseRun.bounds hcontains).1
    omega
  have hlower := toLower_eq_capitals c.toNat hn
  rw [Char.ofNat_toNat] at hlower
  rw [mapByRuns, show lowerRuns = capitals :: lowerRuns.tail from rfl, List.find?_cons, htail,
    hlower]
  cases capitals.contains c.toNat <;> rfl

theorem mapByRuns_lower_beyond {c : Char} (hc : isBeyondAscii c) :
    c = '\u212A' ∧ mapByRuns lowerRuns c = 'k' ∨ isBeyondAscii (mapByRuns lowerRuns c) := by
  have hn : 128 ≤ c.toNat := by simpa [isBeyondAscii] using hc
  unfold mapByRuns
  cases hrun : lowerRuns.find? (·.contains c.toNat) with
  | none => exact .inr hc
  | some run =>
      have hcontains : run.contains c.toNat = true := by simpa using List.find?_some hrun
      obtain ⟨hfirst, hlast⟩ := CaseRun.bounds hcontains
      rcases List.mem_cons.1 (List.mem_of_find?_eq_some hrun) with rfl | htail
      · have hle : c.toNat ≤ 0x5A := hlast
        omega
      obtain ⟨-, ⟨hstart, hstop, hoffset⟩ | ⟨hbeyond, hvalid⟩⟩ := lowerRuns_beyond run htail
      · have hkelvin : c.toNat = 0x212A := by omega
        have himage : run.image c.toNat = 0x6B := by
          rw [CaseRun.image, hkelvin, hoffset]
          rfl
        refine .inl ⟨?_, ?_⟩
        · rw [← Char.ofNat_toNat c, hkelvin]
        · exact congrArg Char.ofNat himage
      · right
        have himage : run.image c.toNat = (c.toNat + run.offset).toNat := rfl
        have hchar : (run.image c.toNat).isValidChar := by
          rw [himage]
          rcases hvalid with hlow | ⟨hhigh, hmax⟩
          · exact .inl (by omega)
          · exact .inr ⟨by omega, by omega⟩
        have hnat : (Char.ofNat (run.image c.toNat)).toNat = run.image c.toNat := by
          rw [Char.ofNat, dif_pos hchar]
          rfl
        simp only [isBeyondAscii, hnat, decide_eq_true_eq]
        omega

theorem isLowered_lowerChar (c : Char) : IsLowered c (lowerChar c) := by
  unfold IsLowered
  split
  · next hc =>
      unfold lowerChar
      split
      · exact .inr ⟨'\u0307', by simp, by decide⟩
      · rcases mapByRuns_lower_beyond hc with ⟨hkelvin, hlower⟩ | hbeyond
        · exact .inl ⟨hkelvin, by rw [hlower]⟩
        · exact .inr ⟨_, List.mem_singleton_self _, hbeyond⟩
  · next hc =>
      have hascii : isBeyondAscii c = false := by simpa using hc
      have hne : c ≠ '\u0130' := (ne_of_beyond (by decide) hascii).symm
      rw [lowerChar, if_neg hne, mapByRuns_lower_ascii hascii]

theorem isLowered_toLower (c : Char) : IsLowered c [c.toLower] := by
  unfold IsLowered
  split
  · next hc =>
      have hn : 128 ≤ c.val.toNat := by simpa [isBeyondAscii] using hc
      have hle : ¬ c.val ≤ 'Z'.val := by
        rw [UInt32.le_iff_toNat_le]
        change ¬ c.val.toNat ≤ 90
        omega
      have hlower : c.toLower = c := dif_neg fun h => hle h.2
      exact .inr ⟨c, by rw [hlower]; exact List.mem_singleton_self c, hc⟩
  · rfl

/-- A way to lower characters as a way to lower a text, one after the other. -/
theorem forall₂_isLowered {lower : Char → Text} (h : ∀ c, IsLowered c (lower c)) (t : Text) :
    List.Forall₂ IsLowered t (t.map lower) := by
  rw [List.forall₂_map_right_iff, List.forall₂_same]
  exact fun c _ => h c

/-- An ASCII text has one lower case. -/
theorem lowers_eq_of_isAscii {t : Text} {lowers others : List Text}
    (h : List.Forall₂ IsLowered t lowers) (hother : List.Forall₂ IsLowered t others)
    (ht : t.isAscii) : lowers = others := by
  induction h generalizing others with
  | nil => cases hother; rfl
  | cons hc _ ih =>
      cases hother with
      | cons hd hothers =>
          obtain ⟨hascii, hrest⟩ := isAscii_cons_iff.1 ht
          rw [IsLowered, if_neg (by simp [hascii])] at hc hd
          rw [hc, hd, ih hothers hrest]

/-- What a character beyond ASCII leaves in the lower case of a text. -/
theorem exists_mem_flatten_of_not_isAscii {t : Text} {lowers : List Text}
    (h : List.Forall₂ IsLowered t lowers) (ht : ¬ t.isAscii) :
    ∃ d ∈ lowers.flatten, isBeyondAscii d ∨ d = 'k' := by
  induction h with
  | nil => exact absurd rfl ht
  | @cons c lower cs lowers hc _ ih =>
      rw [List.flatten_cons]
      by_cases hbeyond : isBeyondAscii c = true
      · rw [IsLowered, if_pos hbeyond] at hc
        rcases hc with ⟨-, rfl⟩ | ⟨d, hd, hdbeyond⟩
        · exact ⟨'k', by simp, .inr rfl⟩
        · exact ⟨d, List.mem_append_left _ hd, .inl hdbeyond⟩
      · obtain ⟨d, hd, hdbeyond⟩ := ih fun hcs =>
          ht (isAscii_cons_iff.2 ⟨by simpa using hbeyond, hcs⟩)
        exact ⟨d, List.mem_append_right _ hd, hdbeyond⟩

theorem mem_replaceChar {c d : Char} {new t : Text} (hd : d ∈ t) (hne : d ≠ c) :
    d ∈ replaceChar c new t := by
  refine List.mem_flatMap.2 ⟨d, hd, ?_⟩
  rw [if_neg hne]
  exact List.mem_singleton_self d

end Text

open Text

namespace Choice

/-- A spelling without the white space around it, with its ASCII letters in lower case and
with hyphens for underscores. -/
def asciiForm (t : Text) : Text :=
  replaceChar '_' ['-'] ((trim isWhiteSpace t).map Char.toLower)

/-- A closed list of choices whose names are in ASCII and hold no `k`. -/
class Lawful (α : Type) [Choice α] : Prop where
  mem_all : ∀ a : α, a ∈ (all : List α)
  nodup_names : ((all : List α).map name).Nodup
  plain : ∀ a : α, (name a).all (fun d => !isBeyondAscii d && d != 'k') = true

instance : Lawful Profile where
  mem_all a := by cases a <;> decide
  nodup_names := by decide
  plain a := by cases a <;> rfl

instance : Lawful Language where
  mem_all a := by cases a <;> decide
  nodup_names := by decide
  plain a := by cases a <;> rfl

instance : Lawful MarkupType where
  mem_all a := by cases a <;> decide
  nodup_names := by decide
  plain a := by cases a <;> rfl

variable {α : Type} [Choice α] [Lawful α]

theorem ofName?_eq_some_iff {t : Text} {a : α} : ofName? t = some a ↔ t = name a := by
  constructor
  · intro h
    have hname : (name a == t) = true := by simpa using List.find?_some h
    exact (eq_of_beq hname).symm
  · rintro rfl
    obtain ⟨b, hb⟩ := Option.isSome_iff_exists.1 (isSome_ofName?_name (Lawful.mem_all a))
    have hname : (name b == name a) = true := by simpa using List.find?_some hb
    obtain rfl : b = a := List.inj_on_of_nodup_map Lawful.nodup_names (Lawful.mem_all b)
      (Lawful.mem_all a) (eq_of_beq hname)
    exact hb

theorem isAscii_of_lowers_eq_name {t : Text} {lowers : List Text}
    (h : List.Forall₂ IsLowered t lowers) {a : α}
    (hname : replaceChar '_' ['-'] lowers.flatten = name a) : t.isAscii := by
  by_contra ht
  obtain ⟨d, hd, hplain⟩ := exists_mem_flatten_of_not_isAscii h ht
  have hne : d ≠ '_' := by
    rcases hplain with hbeyond | rfl
    · exact ne_of_beyond hbeyond (by decide)
    · decide
  have hmem : d ∈ name a := hname ▸ mem_replaceChar hd hne
  have hd : isBeyondAscii d = false ∧ d ≠ 'k' := by
    simpa using List.all_eq_true.1 (Lawful.plain a) d hmem
  rcases hplain with hbeyond | rfl
  · exact Bool.false_ne_true (hd.1.symm.trans hbeyond)
  · exact hd.2 rfl

/-- However the characters beyond ASCII are lowered, the same texts become the name of a
choice. -/
theorem lowers_eq_name_iff {t : Text} {lowers others : List Text}
    (h : List.Forall₂ IsLowered t lowers) (hother : List.Forall₂ IsLowered t others) (a : α) :
    replaceChar '_' ['-'] lowers.flatten = name a ↔
      replaceChar '_' ['-'] others.flatten = name a := by
  by_cases ht : t.isAscii = true
  · rw [lowers_eq_of_isAscii h hother ht]
  · exact iff_of_false (fun hname => ht (isAscii_of_lowers_eq_name h hname))
      fun hname => ht (isAscii_of_lowers_eq_name hother hname)

theorem parse?_eq_some_iff_name {t : Text} {a : α} :
    parse? t = some a ↔ asciiForm t = name a := by
  have hlower := forall₂_isLowered isLowered_lowerChar (trim isWhiteSpace t)
  have hascii := forall₂_isLowered isLowered_toLower (trim isWhiteSpace t)
  have hmap : (trim isWhiteSpace t).map Char.toLower =
      ((trim isWhiteSpace t).map fun c => [c.toLower]).flatten := by
    rw [← List.flatMap_def, List.map_eq_flatMap]
  rw [parse?, ofName?_eq_some_iff, normalize, lowercase, List.flatMap_def,
    lowers_eq_name_iff hlower hascii, asciiForm, hmap]

theorem isAscii_of_parse? {t : Text} {a : α} (h : parse? t = some a) :
    (trim isWhiteSpace t).isAscii := by
  rw [parse?, ofName?_eq_some_iff, normalize, lowercase, List.flatMap_def] at h
  exact isAscii_of_lowers_eq_name (forall₂_isLowered isLowered_lowerChar _) h

end Choice

/-- A choice for one of the settings. -/
inductive AnyChoice
  | profile (p : Profile)
  | language (l : Language)
  | markup (m : MarkupType)
  deriving DecidableEq

namespace AnyChoice

def all : List AnyChoice :=
  (Choice.all : List Profile).map profile ++ (Choice.all : List Language).map language ++
    (Choice.all : List MarkupType).map markup

def name : AnyChoice → Text
  | profile p => Choice.name p
  | language l => Choice.name l
  | markup m => Choice.name m

/-- Whether a spelling selects a choice. -/
def IsReadFrom (t : Text) : AnyChoice → Prop
  | profile p => Choice.parse? t = some p
  | language l => Choice.parse? t = some l
  | markup m => Choice.parse? t = some m

theorem mem_all (choice : AnyChoice) : choice ∈ all := by
  rcases choice with p | l | m
  · cases p <;> decide
  · cases l <;> decide
  · cases m <;> decide

theorem nodup_names : (all.map name).Nodup := by decide

theorem isReadFrom_iff {t : Text} {choice : AnyChoice} :
    choice.IsReadFrom t ↔ Choice.asciiForm t = choice.name := by
  rcases choice with p | l | m
  · exact Choice.parse?_eq_some_iff_name
  · exact Choice.parse?_eq_some_iff_name
  · exact Choice.parse?_eq_some_iff_name

/-- A choice is read from its name in any ASCII letter case, with white space around it and
underscores for hyphens, from nothing else, and never together with another one. -/
theorem isReadFrom_spellings :
    (∀ (t : Text) (choice : AnyChoice),
      choice.IsReadFrom t ↔ Choice.asciiForm t = choice.name) ∧
    (∀ (t : Text) (choice : AnyChoice), choice.IsReadFrom t →
      (trim isWhiteSpace t).isAscii = true) ∧
    ∀ (t : Text) (choice other : AnyChoice),
      choice.IsReadFrom t → other.IsReadFrom t → choice = other := by
  refine ⟨fun _ _ => isReadFrom_iff, fun t choice h => ?_, fun t choice other h hother => ?_⟩
  · rcases choice with p | l | m
    · exact Choice.isAscii_of_parse? h
    · exact Choice.isAscii_of_parse? h
    · exact Choice.isAscii_of_parse? h
  · have hname : choice.name = other.name :=
      (isReadFrom_iff.1 h).symm.trans (isReadFrom_iff.1 hother)
    exact List.inj_on_of_nodup_map nodup_names (mem_all choice) (mem_all other) hname

/-- White space around a spelling may lie beyond ASCII. -/
theorem isReadFrom_spellings_classBased :
    (markup .classBased).IsReadFrom "\u3000 CLASS_Based\n".toList ∧
      (trim isWhiteSpace "\u3000 CLASS_Based\n".toList).isAscii = true ∧
      ¬ (profile .netbeans).IsReadFrom "\u3000 CLASS_Based\n".toList := by
  have hread : (markup .classBased).IsReadFrom "\u3000 CLASS_Based\n".toList :=
    (isReadFrom_spellings.1 _ _).2 (by decide)
  refine ⟨hread, isReadFrom_spellings.2.1 _ _ hread, fun h => ?_⟩
  exact absurd (isReadFrom_spellings.2.2 _ _ _ hread h) (by decide)

end AnyChoice

end SourceMarkup
