import Mathlib.Data.List.Induction
import SourceMarkup.Markup.Reference

/-!
# What an ampersand begins

The text after an ampersand decides what the ampersand begins: a reference to a
character, a malformed reference, an unknown name, or nothing at all. `Begins` tells
these apart by the form of the text alone. A body is what stands before the first
semicolon, if that is near enough; a number is written in digits of its base, of
which there are some but not too many. Every ampersand begins exactly one of these,
and it is what reading finds there.
-/

namespace SourceMarkup

open Text

namespace Markup

namespace Reference

/-- What an ampersand begins. A malformed reference is an error at an offset. -/
inductive Finding
  | reference (c : Char) (body : Text)
  | malformed (error : Nat → ReferenceError)
  | unknownName
  | bare

/-- The text after an ampersand starts with a body and the semicolon behind it. -/
def HasBody (rest body : Text) : Prop :=
  ';' ∉ body ∧ body.length ≤ maxBody ∧ ∃ tail, rest = body ++ ';' :: tail

/-- The text after an ampersand has no semicolon near enough to end a reference. -/
def IsOpen (rest : Text) : Prop :=
  ';' ∉ rest.take (maxBody + 1)

/-- A body that refers to a character by number: the base, the most digits there may
be, and the digits. -/
inductive IsNumeric : Text → Nat → Nat → Text → Prop
  | hexadecimal {x : Char} (hx : x = 'x' ∨ x = 'X') (digits : Text) :
      IsNumeric ('#' :: x :: digits) 16 4 digits
  | decimal {digits : Text} (hlower : digits.head? ≠ some 'x')
      (hupper : digits.head? ≠ some 'X') : IsNumeric ('#' :: digits) 10 5 digits

inductive Numeral (base : Nat) : Text → Nat → Prop
  | nil : Numeral base [] 0
  | snoc {digits : Text} {n : Nat} {c : Char} {d : Nat} (hdigits : Numeral base digits n)
      (hc : digit? base c = some d) : Numeral base (digits ++ [c]) (n * base + d)

/-- What an ampersand begins, by the text after it. -/
inductive Begins (rest : Text) : Finding → Prop
  | name {body c} (hbody : HasBody rest body) (hname : (body, c) ∈ names) :
      Begins rest (.reference c body)
  | number {body base most digits c} (hbody : HasBody rest body)
      (hnumeric : IsNumeric body base most digits) (hne : digits ≠ [])
      (hmost : digits.length ≤ most) (hnumeral : Numeral base digits c.toNat) :
      Begins rest (.reference c body)
  | noDigits {body base most} (hbody : HasBody rest body)
      (hnumeric : IsNumeric body base most []) : Begins rest (.malformed .emptyNumeric)
  | manyDigits {body base most digits} (hbody : HasBody rest body)
      (hnumeric : IsNumeric body base most digits) (hmost : most < digits.length) :
      Begins rest (.malformed (.invalidCodePoint (written body)))
  | badDigit {body base most good n c more} (hbody : HasBody rest body)
      (hnumeric : IsNumeric body base most (good ++ c :: more))
      (hmost : (good ++ c :: more).length ≤ most) (hgood : Numeral base good n)
      (hc : digit? base c = none) : Begins rest (.malformed (.invalidDigit c))
  | noScalar {body base most digits n} (hbody : HasBody rest body)
      (hnumeric : IsNumeric body base most digits) (hne : digits ≠ [])
      (hmost : digits.length ≤ most) (hnumeral : Numeral base digits n)
      (hn : ¬ n.isValidChar) :
      Begins rest (.malformed (.invalidCodePoint (written body)))
  | unknownName {body} (hbody : HasBody rest body) (hnumber : body.head? ≠ some '#')
      (hname : ∀ c, (body, c) ∉ names) : Begins rest .unknownName
  | openNumber {more} (hopen : IsOpen rest) (hrest : rest = '#' :: more) :
      Begins rest (.malformed (.invalidCodePoint ('&' :: '#' :: more.take maxBody)))
  | bare (hopen : IsOpen rest) (hrest : rest.head? ≠ some '#') : Begins rest .bare

/-! ### Bodies -/

theorem take_of_hasBody {rest body : Text} (h : HasBody rest body) :
    ∃ tail, rest.take (maxBody + 1) = body ++ ';' :: tail := by
  obtain ⟨-, hlength, tail, rfl⟩ := h
  obtain ⟨n, hn⟩ := Nat.exists_eq_add_of_le hlength
  refine ⟨tail.take n, ?_⟩
  rw [hn, Nat.add_assoc, List.take_length_add_append, List.take_succ_cons]

theorem exists_hasBody {rest : Text} (h : ';' ∈ rest.take (maxBody + 1)) :
    ∃ body, HasBody rest body := by
  obtain ⟨body, tail, hnear, hbody⟩ := List.eq_append_cons_of_mem h
  refine ⟨body, hbody, ?_, tail ++ rest.drop (maxBody + 1), ?_⟩
  · have hlength := congrArg List.length hnear
    rw [List.length_take, List.length_append, List.length_cons] at hlength
    omega
  · have hrest := List.take_append_drop (maxBody + 1) rest
    rw [hnear, List.append_assoc, List.cons_append] at hrest
    exact hrest.symm

theorem read_of_hasBody {rest body : Text} (h : HasBody rest body) (offset : Nat) :
    read offset rest =
      (readBody offset body).map (·.map fun c => (c, body.length + 1)) := by
  obtain ⟨tail, hnear⟩ := take_of_hasBody h
  have hbody : (body ++ ';' :: tail).takeWhile (· != ';') = body := by
    rw [List.takeWhile_append_of_pos]
    · simp
    · intro c hc
      exact bne_iff_ne.2 fun hsemi => h.1 (hsemi ▸ hc)
  have hmem : (body ++ ';' :: tail).contains ';' = true := by simp
  simp only [read, hnear, hmem, if_true, hbody]

theorem read_of_isOpen_number {more : Text} (h : IsOpen ('#' :: more)) (offset : Nat) :
    read offset ('#' :: more) =
      .error (.invalidCodePoint ('&' :: '#' :: more.take maxBody) offset) := by
  have hnear : (('#' :: more).take (maxBody + 1)).contains ';' = false := by
    rw [Bool.eq_false_iff, ne_eq, List.contains_iff_mem]
    exact h
  simp only [read, hnear]
  rfl

theorem read_of_isOpen_bare {rest : Text} (h : IsOpen rest) (hrest : rest.head? ≠ some '#')
    (offset : Nat) : read offset rest = .ok none := by
  have hnear : (rest.take (maxBody + 1)).contains ';' = false := by
    rw [Bool.eq_false_iff, ne_eq, List.contains_iff_mem]
    exact h
  unfold read
  simp only [hnear, Bool.false_eq_true, if_false]
  split
  · simp at hrest
  · rfl

/-! ### Numbers -/

theorem readBody_of_isNumeric {body digits : Text} {base most : Nat}
    (h : IsNumeric body base most digits) (offset : Nat) :
    readBody offset body = (readNumber offset body base most digits).map some := by
  cases h with
  | hexadecimal hx digits =>
      rcases hx with rfl | rfl
      · rfl
      · rfl
  | decimal hlower hupper =>
      unfold readBody
      split
      · simp_all
      · simp_all
      · simp_all
      · simp_all

theorem exists_isNumeric (digits : Text) :
    ∃ base most ds, IsNumeric ('#' :: digits) base most ds := by
  cases digits with
  | nil => exact ⟨10, 5, [], .decimal (by simp) (by simp)⟩
  | cons x ds =>
      by_cases hx : x = 'x' ∨ x = 'X'
      · exact ⟨16, 4, ds, .hexadecimal hx ds⟩
      · rw [not_or] at hx
        exact ⟨10, 5, x :: ds, .decimal (by simpa using hx.1) (by simpa using hx.2)⟩

theorem readBody_of_name {body : Text} (h : body.head? ≠ some '#') (offset : Nat) :
    readBody offset body = .ok (names.lookup body) := by
  unfold readBody
  split
  · simp at h
  · simp at h
  · simp at h
  · rfl

theorem lookup_names {body : Text} {c : Char} (h : (body, c) ∈ names) :
    names.lookup body = some c := by
  simp only [names, List.mem_cons, Prod.mk.injEq, List.not_mem_nil, or_false] at h
  rcases h with ⟨rfl, rfl⟩ | ⟨rfl, rfl⟩ | ⟨rfl, rfl⟩ | ⟨rfl, rfl⟩ | ⟨rfl, rfl⟩ |
    ⟨rfl, rfl⟩ | ⟨rfl, rfl⟩ | ⟨rfl, rfl⟩ <;> decide

theorem number_append (base : Nat) (digits : Text) (c : Char) :
    Text.number base (digits ++ [c]) =
      Text.number base digits * base + (digit? base c).getD 0 := by
  simp [Text.number, List.foldl_append]

theorem Numeral.number_eq {base n : Nat} {digits : Text} (h : Numeral base digits n) :
    Text.number base digits = n := by
  induction h with
  | nil => rfl
  | snoc hdigits hc ih => rw [number_append, ih, hc, Option.getD_some]

theorem Numeral.find?_eq_none {base n : Nat} {digits : Text} (h : Numeral base digits n) :
    (digits.find? fun c => (digit? base c).isNone) = none := by
  induction h with
  | nil => rfl
  | snoc hdigits hc ih => simp [ih, hc]

/-- What is no digit of any base stands in no number. -/
theorem Numeral.not_mem {base n : Nat} {digits : Text} (h : Numeral base digits n)
    {c : Char} (hc : hexDigit? c = none) : c ∉ digits := by
  induction h with
  | nil => simp
  | snoc hdigits hd ih =>
      have hne : ∀ e d, digit? base e = some d → e ≠ c := by
        rintro e d he rfl
        simp [digit?, hc] at he
      simp [ih, (hne _ _ hd).symm]

/-- Digits write a number, unless there is a first one that is none. -/
theorem exists_numeral (base : Nat) (digits : Text) :
    (∃ n, Numeral base digits n) ∨
      ∃ good n c more, digits = good ++ c :: more ∧ Numeral base good n ∧
        digit? base c = none := by
  induction digits using List.reverseRecOn with
  | nil => exact Or.inl ⟨0, .nil⟩
  | append_singleton digits c ih =>
      rcases ih with ⟨n, hn⟩ | ⟨good, n, d, more, rfl, hgood, hd⟩
      · cases hc : digit? base c with
        | none => exact Or.inr ⟨digits, n, c, [], rfl, hn, hc⟩
        | some d => exact Or.inl ⟨_, .snoc hn hc⟩
      · exact Or.inr ⟨good, n, d, more ++ [c], by simp, hgood, hd⟩

theorem charOfCode?_toNat (c : Char) : charOfCode? c.toNat = some c := by
  have hvalid : c.toNat.isValidChar := c.valid
  rw [charOfCode?, if_pos hvalid, Char.ofNat_toNat]

section ReadNumber

variable {body digits : Text} {base most n : Nat} (offset : Nat)

theorem readNumber_of_numeral (hne : digits ≠ []) (hmost : digits.length ≤ most)
    (h : Numeral base digits n) :
    readNumber offset body base most digits =
      match charOfCode? n with
      | some c => .ok c
      | none => .error (.invalidCodePoint (written body) offset) := by
  rw [← h.number_eq, readNumber, if_neg (by simpa using hne), h.find?_eq_none]
  exact if_neg (Nat.not_lt.2 hmost)

theorem readNumber_of_badDigit {good more : Text} {c : Char}
    (hmost : (good ++ c :: more).length ≤ most) (hgood : Numeral base good n)
    (hc : digit? base c = none) :
    readNumber offset body base most (good ++ c :: more) =
      .error (.invalidDigit c offset) := by
  have hfind : ((good ++ c :: more).find? fun d => (digit? base d).isNone) = some c := by
    simp [List.find?_append, hgood.find?_eq_none, hc]
  rw [readNumber, if_neg (by simp), if_neg (Nat.not_lt.2 hmost), hfind]

theorem readNumber_of_manyDigits (hmost : most < digits.length) :
    readNumber offset body base most digits =
      .error (.invalidCodePoint (written body) offset) := by
  have hne : digits ≠ [] := List.ne_nil_of_length_pos (by omega)
  rw [readNumber, if_neg (by simpa using hne), if_pos hmost]

end ReadNumber

/-! ### Findings -/

def Finding.result (offset : Nat) :
    Finding → Except ReferenceError (Option (Char × Nat))
  | reference c body => .ok (some (c, body.length + 1))
  | malformed error => .error (error offset)
  | unknownName => .ok none
  | bare => .ok none

theorem read_eq_of_begins {rest : Text} {finding : Finding} (h : Begins rest finding)
    (offset : Nat) : read offset rest = finding.result offset := by
  cases h with
  | name hbody hname =>
      have hnumber : ∀ entry ∈ names, entry.1.head? ≠ some '#' := by decide
      rw [read_of_hasBody hbody, readBody_of_name (hnumber _ hname), lookup_names hname]
      rfl
  | number hbody hnumeric hne hmost hnumeral =>
      rw [read_of_hasBody hbody, readBody_of_isNumeric hnumeric,
        readNumber_of_numeral offset hne hmost hnumeral, charOfCode?_toNat]
      rfl
  | noDigits hbody hnumeric =>
      rw [read_of_hasBody hbody, readBody_of_isNumeric hnumeric]
      rfl
  | manyDigits hbody hnumeric hmost =>
      rw [read_of_hasBody hbody, readBody_of_isNumeric hnumeric,
        readNumber_of_manyDigits offset hmost]
      rfl
  | badDigit hbody hnumeric hmost hgood hc =>
      rw [read_of_hasBody hbody, readBody_of_isNumeric hnumeric,
        readNumber_of_badDigit offset hmost hgood hc]
      rfl
  | noScalar hbody hnumeric hne hmost hnumeral hn =>
      rw [read_of_hasBody hbody, readBody_of_isNumeric hnumeric,
        readNumber_of_numeral offset hne hmost hnumeral, charOfCode?, if_neg hn]
      rfl
  | @unknownName body hbody hnumber hname =>
      have hlookup : names.lookup body = none := by
        rw [List.lookup_eq_none_iff]
        intro entry hentry
        exact bne_iff_ne.2 fun h => hname entry.2 (h ▸ hentry)
      rw [read_of_hasBody hbody, readBody_of_name hnumber, hlookup]
      rfl
  | openNumber hopen hrest =>
      subst hrest
      exact read_of_isOpen_number hopen offset
  | bare hopen hrest => exact read_of_isOpen_bare hopen hrest offset

/-- Every ampersand begins something. -/
theorem exists_begins (rest : Text) : ∃ finding, Begins rest finding := by
  by_cases hopen : IsOpen rest
  · by_cases hrest : rest.head? = some '#'
    · obtain ⟨more, hmore⟩ := List.head?_eq_some_iff.1 hrest
      exact ⟨_, .openNumber hopen hmore⟩
    · exact ⟨_, .bare hopen hrest⟩
  obtain ⟨body, hbody⟩ := exists_hasBody (Classical.not_not.1 hopen)
  by_cases hnumber : body.head? = some '#'
  · obtain ⟨digits, rfl⟩ := List.head?_eq_some_iff.1 hnumber
    obtain ⟨base, most, ds, hnumeric⟩ := exists_isNumeric digits
    by_cases hne : ds = []
    · subst hne
      exact ⟨_, .noDigits hbody hnumeric⟩
    by_cases hmost : most < ds.length
    · exact ⟨_, .manyDigits hbody hnumeric hmost⟩
    have hmost : ds.length ≤ most := Nat.not_lt.1 hmost
    rcases exists_numeral base ds with ⟨n, hn⟩ | ⟨good, n, c, more, rfl, hgood, hc⟩
    · by_cases hvalid : n.isValidChar
      · have hchar : (Char.ofNat n).toNat = n := by
          rw [Char.ofNat, dif_pos hvalid]
          rfl
        exact ⟨_, .number hbody hnumeric hne hmost (hchar.symm ▸ hn)⟩
      · exact ⟨_, .noScalar hbody hnumeric hne hmost hn hvalid⟩
    · exact ⟨_, .badDigit hbody hnumeric hmost hgood hc⟩
  · by_cases hname : ∃ c, (body, c) ∈ names
    · obtain ⟨c, hc⟩ := hname
      exact ⟨_, .name hbody hc⟩
    · exact ⟨_, .unknownName hbody hnumber (not_exists.1 hname)⟩

theorem Begins.hasBody {rest body : Text} {c : Char}
    (h : Begins rest (.reference c body)) : HasBody rest body := by
  cases h with
  | name hbody _ => exact hbody
  | number hbody _ _ _ _ => exact hbody

theorem HasBody.eq_take {rest body : Text} (h : HasBody rest body) :
    body = rest.take body.length := by
  obtain ⟨-, -, tail, rfl⟩ := h
  rw [List.take_left]

theorem HasBody.not_isOpen {rest body : Text} (h : HasBody rest body) : ¬ IsOpen rest := by
  obtain ⟨tail, hnear⟩ := take_of_hasBody h
  intro hopen
  refine hopen ?_
  rw [hnear]
  exact List.mem_append_right body List.mem_cons_self

theorem Begins.not_bare {rest : Text} (h : Begins rest .unknownName) :
    ¬ Begins rest .bare := by
  intro hbare
  cases h with
  | unknownName hbody _ _ =>
      cases hbare with
      | bare hopen _ => exact hbody.not_isOpen hopen

/-- An ampersand begins one thing only. Reading tells findings apart, except for an
unknown name and nothing at all, which have a semicolon between them. -/
theorem Begins.unique {rest : Text} {f g : Finding} (hf : Begins rest f)
    (hg : Begins rest g) : f = g := by
  have hresult : ∀ offset, f.result offset = g.result offset := fun offset =>
    (read_eq_of_begins hf offset).symm.trans (read_eq_of_begins hg offset)
  have hzero := hresult 0
  cases f with
  | reference c body =>
      cases g with
      | reference d body' =>
          simp only [Finding.result, Except.ok.injEq, Option.some.injEq, Prod.mk.injEq,
            Nat.add_right_cancel_iff] at hzero
          rw [hf.hasBody.eq_take, hg.hasBody.eq_take, hzero.1, hzero.2]
      | malformed error => cases hzero
      | unknownName => cases hzero
      | bare => cases hzero
  | malformed error =>
      cases g with
      | reference c body => cases hzero
      | malformed error' =>
          exact congrArg Finding.malformed (funext fun offset =>
            Except.error.inj (hresult offset))
      | unknownName => cases hzero
      | bare => cases hzero
  | unknownName =>
      cases g with
      | reference c body => cases hzero
      | malformed error => cases hzero
      | unknownName => rfl
      | bare => exact absurd hg hf.not_bare
  | bare =>
      cases g with
      | reference c body => cases hzero
      | malformed error => cases hzero
      | unknownName => exact absurd hf hg.not_bare
      | bare => rfl

/-- The text of a reference holds no ampersand. -/
theorem Begins.not_mem_body {rest body : Text} {c : Char}
    (h : Begins rest (.reference c body)) : '&' ∉ body := by
  have hnames : ∀ entry ∈ names, '&' ∉ entry.1 := by decide
  cases h with
  | name _ hname => exact hnames _ hname
  | number _ hnumeric _ _ hnumeral =>
      have hamp : hexDigit? '&' = none := by decide
      have hdigits := hnumeral.not_mem hamp
      cases hnumeric with
      | hexadecimal hx digits => rcases hx with rfl | rfl <;> simp [hdigits]
      | decimal _ _ => simp [hdigits]

end Reference

end Markup

end SourceMarkup
