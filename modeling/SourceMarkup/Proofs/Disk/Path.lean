import Mathlib.Data.List.TakeWhile
import SourceMarkup.Disk.Path
import SourceMarkup.Proofs.Text.Split

/-!
# The parts of a path

Slashes in a row and single dots lead nowhere. The names in a path that lead somewhere are
its parts. Trimming a path changes none of them, and those of the folder that a path lies
in are the first of its own.
-/

namespace SourceMarkup

namespace Disk

namespace Path

def leads (name : Text) : Bool :=
  !(name == [] || name == ['.'])

/-- The names in a path that lead somewhere. -/
def parts (path : Path) : List Text :=
  (Text.splitOn '/' path).filter leads

theorem parts_nil : parts [] = [] := rfl

theorem parts_dot : parts ['.'] = [] := rfl

theorem parts_append_slash (front back : Path) :
    parts (front ++ '/' :: back) = parts front ++ parts back := by
  rw [parts, Text.splitOn_append, List.filter_append]
  rfl

theorem parts_concat_slash (path : Path) : parts (path ++ ['/']) = parts path := by
  rw [parts_append_slash, parts_nil, List.append_nil]

/-! ### Trimmed paths -/

theorem parts_trimTail (t : Text) : parts (trimTail t).reverse = parts t.reverse := by
  fun_induction trimTail t with
  | case1 => rfl
  | case2 cs hempty =>
      rw [List.isEmpty_iff.1 hempty]
  | case3 cs hempty ih => rw [ih, List.reverse_cons, parts_concat_slash]
  | case4 cs hslash ih =>
      have hdot : ('.' :: '/' :: cs).reverse = cs.reverse ++ '/' :: ['.'] := by simp
      rw [ih, List.reverse_cons, parts_concat_slash, hdot, parts_append_slash, parts_dot,
        List.append_nil]
  | case5 => rfl
  | case6 => rfl

theorem parts_dropWhile_slash (t : Text) :
    parts (t.dropWhile (· == '/')).reverse = parts t.reverse := by
  induction t with
  | nil => rfl
  | cons c cs ih =>
      by_cases hc : c = '/'
      · subst hc
        rw [List.dropWhile_cons_of_pos (by decide), ih, List.reverse_cons, parts_concat_slash]
      · rw [List.dropWhile_cons_of_neg (by simpa using hc)]

theorem parts_trimSlashes (path : Path) : parts path.trimSlashes = parts path := by
  have hparts : parts (Text.trimEnd (· == '/') path) = parts path := by
    rw [Text.trimEnd, parts_dropWhile_slash, List.reverse_reverse]
  rw [trimSlashes]
  split
  · next hempty =>
      rw [← hparts, hempty]
      cases path with
      | nil => rfl
      | cons c cs =>
          have hslashes : ∀ d ∈ (c :: cs).reverse, (d == '/') = true :=
            List.dropWhile_eq_nil_iff.1 (List.reverse_eq_nil_iff.1 hempty)
          obtain rfl : c = '/' := eq_of_beq (hslashes c (by simp))
          rfl
  · exact hparts

/-- Without the name at the end, the parts before it are left. -/
theorem parts_dropWhile_name_prefix (t : Text) :
    parts (t.dropWhile (· != '/')).reverse <+: parts t.reverse := by
  have hsplit := List.takeWhile_append_dropWhile (p := (· != '/')) (l := t)
  cases hrest : t.dropWhile (· != '/') with
  | nil => exact List.nil_prefix
  | cons c rest =>
      obtain rfl : c = '/' := by
        have hhead := List.head?_dropWhile_not (· != '/') t
        rw [hrest] at hhead
        simpa using hhead
      rw [hrest] at hsplit
      rw [← hsplit, List.reverse_append, List.reverse_cons, parts_concat_slash,
        List.append_assoc, List.singleton_append, parts_append_slash]
      exact List.prefix_append _ _

/-- The folder that a path lies in is reached by the first of its parts. -/
theorem parts_prefix_of_parent? {path parent : Path} (h : path.parent? = some parent) :
    parent.parts <+: path.parts := by
  have hpath : parts (trimTail path.reverse).reverse = parts path := by
    rw [parts_trimTail, List.reverse_reverse]
  rw [parent?.eq_def] at h
  split at h
  · contradiction
  · contradiction
  · obtain rfl := Option.some.inj h
    rw [parts_trimTail, ← hpath]
    exact parts_dropWhile_name_prefix _

/-! ### Where paths start -/

theorem trimTail_suffix (t : Text) : trimTail t <:+ t := by
  fun_induction trimTail t with
  | case1 => exact List.suffix_rfl
  | case2 cs hempty => exact List.isEmpty_iff.1 hempty ▸ List.suffix_rfl
  | case3 cs hempty ih => exact ih.trans (List.suffix_cons _ _)
  | case4 cs hslash ih => exact ih.trans (List.suffix_cons _ _)
  | case5 => exact List.suffix_rfl
  | case6 => exact List.suffix_rfl

theorem prefix_of_parent? {path parent : Path} (h : path.parent? = some parent) :
    parent <+: path := by
  rw [parent?.eq_def] at h
  split at h
  · contradiction
  · contradiction
  · obtain rfl := Option.some.inj h
    rw [← List.reverse_suffix, List.reverse_reverse]
    exact ((trimTail_suffix _).trans (List.dropWhile_suffix _)).trans (trimTail_suffix _)

theorem trimSlashes_prefix (path : Path) : path.trimSlashes <+: path := by
  rw [trimSlashes]
  split
  · exact List.take_prefix _ _
  · rw [Text.trimEnd, ← List.reverse_suffix, List.reverse_reverse]
    exact List.dropWhile_suffix _

theorem isAbsolute_of_prefix {path front : Path} (h : front <+: path) (hfront : front ≠ []) :
    front.isAbsolute = path.isAbsolute := by
  obtain ⟨back, rfl⟩ := h
  cases front with
  | nil => contradiction
  | cons c cs => rfl

end Path

end Disk

end SourceMarkup
