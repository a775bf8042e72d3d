import SourceMarkup.Proofs.Lexeme.JavaMeaning

/-!
# Tags in javadoc comments

A javadoc comment is one construct, which is split at its tags. A tag is an at sign between
a character that admits it and a name that starts with a letter, and it takes the whole
name. In the parts between the tags there is none left. What stands behind the comment has
no say in this: the comment ends with a slash, or the source ends with the comment.
-/

namespace SourceMarkup

namespace Java

open Lexeme

variable {before part text after : Text} {c previous : Char} {cs : Text}

/-- A tag: an at sign with all letters and digits behind it, the first of them a letter. -/
structure Tag (before text after : Text) : Prop where
  opening : before.getLast?.any admitsTag = true
  name : ∃ c cs, text = '@' :: c :: cs ∧ Text.isAsciiLetter c = true ∧
    ∀ d ∈ cs, Text.isAsciiAlnum d = true
  ending : after.head?.any Text.isAsciiAlnum = false

/-- No tag starts in a text. -/
def Tagless (before text after : Text) : Prop :=
  ∀ front back, text = front ++ '@' :: back →
    (before ++ front).getLast?.any admitsTag = true →
      (back ++ after).head?.any Text.isAsciiLetter = false

/-- What a part of a source is that has a kind of the parts of javadoc comments. -/
def TagsMean (kind : TokenKind) (before text after : Text) : Prop :=
  match kind with
  | .javadoc => Tagless before text after
  | .javadocTag => Tag before text after
  | _ => True

theorem tagsMean_of_ne {kind : TokenKind} (hcomment : kind ≠ .javadoc)
    (htag : kind ≠ .javadocTag) : TagsMean kind before text after := by
  unfold TagsMean
  split
  · exact absurd rfl hcomment
  · exact absurd rfl htag
  · trivial

theorem tagless_nil (before after : Text) : Tagless before [] after := by
  intro front back h
  simp at h

theorem Tagless.cons (h : Tagless (before ++ [c]) text after)
    (hc : c = '@' → before.getLast?.any admitsTag = true →
      (text ++ after).head?.any Text.isAsciiLetter = false) :
    Tagless before (c :: text) after := by
  intro front back hsplit hadmits
  cases front with
  | nil =>
      obtain ⟨rfl, rfl⟩ := List.cons.inj hsplit
      rw [List.append_nil] at hadmits
      exact hc rfl hadmits
  | cons d front =>
      obtain ⟨rfl, hrest⟩ := List.cons.inj hsplit
      refine h front back hrest ?_
      rwa [List.append_assoc]

/-- A comment, or what is left of it, ends with a slash if anything stands behind it. -/
def EndsComment (text after : Text) : Prop :=
  text ≠ [] → after = [] ∨ text.getLast? = some '/'

theorem EndsComment.tail (h : EndsComment (c :: cs) after) : EndsComment cs after := by
  intro hne
  obtain ⟨d, ds, rfl⟩ := List.exists_cons_of_ne_nil hne
  rw [← List.getLast?_cons_cons (a := c)]
  exact h (List.cons_ne_nil c _)

theorem EndsComment.drop (h : EndsComment text after) (n : Nat) :
    EndsComment (text.drop n) after := by
  induction n generalizing text with
  | zero => exact h
  | succ n ih =>
      cases text with
      | nil => exact fun hne => absurd rfl hne
      | cons c cs => exact ih h.tail

/-- At the end of what is left of a comment nothing follows, unless it ends with a slash. -/
theorem EndsComment.eq_nil (h : EndsComment text after) (hlast : text.getLast? = some c)
    (hc : c ≠ '/') : after = [] := by
  have hne : text ≠ [] := by
    rintro rfl
    cases hlast
  rcases h hne with hafter | hslash
  · exact hafter
  · rw [hlast] at hslash
    exact absurd (Option.some.inj hslash) hc

/-- What follows a character of a comment other than a slash can be told by the comment. -/
theorem EndsComment.head?_append (h : EndsComment (c :: cs) after) (hc : c ≠ '/') :
    (cs ++ after).head? = cs.head? := by
  cases cs with
  | nil => rw [h.eq_nil rfl hc, List.append_nil]
  | cons d ds => rfl

/-- A run in a comment does not go on behind the comment. -/
theorem EndsComment.head?_any_dropWhile {p : Char → Bool} (hp : p '/' = false)
    (h : EndsComment text after) (hne : text ≠ []) :
    (text.dropWhile p ++ after).head?.any p = false := by
  cases hrest : text.dropWhile p with
  | cons c cs =>
      have hhead := Lexeme.head?_any_dropWhile p text
      rwa [hrest] at hhead
  | nil =>
      have hrun := List.dropWhile_eq_nil_iff.1 hrest _ (List.getLast_mem hne)
      have hslash : text.getLast hne ≠ '/' := fun heq => by simp [heq, hp] at hrun
      rw [h.eq_nil (List.getLast?_eq_some_getLast hne) hslash]
      rfl

theorem tag_of_startsTag (hprevious : before.getLast? = some previous)
    (hend : EndsComment (c :: cs) after) (h : startsTag previous c cs = true) :
    Tag before (c :: cs.take (runLength Text.isAsciiAlnum cs))
      (cs.drop (runLength Text.isAsciiAlnum cs) ++ after) := by
  simp only [startsTag, Bool.and_eq_true, beq_iff_eq] at h
  obtain ⟨⟨rfl, hadmits⟩, hletter⟩ := h
  cases cs with
  | nil => contradiction
  | cons d ds =>
      have hd : Text.isAsciiAlnum d = true := by
        rw [Text.isAsciiAlnum, show Text.isAsciiLetter d = true from hletter, Bool.true_or]
      rw [take_runLength, drop_runLength]
      refine ⟨by rwa [hprevious], ⟨d, ds.takeWhile Text.isAsciiAlnum, ?_, hletter, ?_⟩, ?_⟩
      · rw [List.takeWhile_cons_of_pos hd]
      · exact fun e he => List.mem_takeWhile_imp he
      · exact hend.tail.head?_any_dropWhile (by decide) (List.cons_ne_nil d ds)

/-- Each lexeme of a row between two texts is what its kind says. -/
def TagsMeanIn (before after : Text) : List Lexeme → Prop
  | [] => True
  | l :: ls =>
      TagsMean l.kind before l.text (source ls ++ after) ∧
        TagsMeanIn (before ++ l.text) after ls

theorem tagsMeanIn_append (before after : Text) (ls ms : List Lexeme) :
    TagsMeanIn before after (ls ++ ms) ↔
      TagsMeanIn before (source ms ++ after) ls ∧
        TagsMeanIn (before ++ source ls) after ms := by
  induction ls generalizing before with
  | nil => simp [TagsMeanIn]
  | cons l ls ih =>
      rw [List.cons_append, TagsMeanIn, TagsMeanIn, ih, source_append, source_cons,
        List.append_assoc, List.append_assoc, and_assoc]

theorem TagsMeanIn.of_append_cons {front back : List Lexeme} {l : Lexeme}
    (h : TagsMeanIn before after (front ++ l :: back)) :
    TagsMean l.kind (before ++ source front) l.text (source back ++ after) :=
  ((tagsMeanIn_append before after front (l :: back)).1 h).2.1

theorem Tagless.javadocPart (h : Tagless before text after) :
    TagsMeanIn before after (javadocPart text) := by
  cases text with
  | nil => trivial
  | cons c cs => exact ⟨h, trivial⟩

/-- What the splitting of a comment at its tags makes of what is left of it: there is no tag
in the part before the first one, and each lexeme is what its kind says. The induction is
over the comment; a step over a character adds it to what stands before. -/
theorem splitTags_mean (hprevious : before.getLast? = some previous)
    (hend : EndsComment text after) :
    Tagless before (splitTags previous text).1
        (source (splitTags previous text).2 ++ after) ∧
      TagsMeanIn (before ++ (splitTags previous text).1) after
        (splitTags previous text).2 := by
  fun_induction splitTags previous text generalizing before with
  | case1 => exact ⟨tagless_nil before _, trivial⟩
  | case2 previous c cs htag n part rest hsplit =>
      rename_i ih
      have hsource : part ++ source rest = cs.drop n := by
        rw [← source_splitTags ((cs.take n).getLastD c) (cs.drop n), hsplit]
      have hlast : (before ++ c :: cs.take n).getLast? = some ((cs.take n).getLastD c) := by
        rw [List.getLast?_append_cons, List.getLast?_cons, List.getLastD_eq_getLast?]
      rw [hsplit] at ih
      obtain ⟨htagless, hrest⟩ := ih hlast (hend.drop (n + 1))
      refine ⟨tagless_nil before _, ?_, ?_⟩
      · rw [List.append_nil, source_append, source_javadocPart, hsource]
        exact tag_of_startsTag hprevious hend htag
      · rw [List.append_nil, tagsMeanIn_append, source_javadocPart]
        exact ⟨htagless.javadocPart, hrest⟩
  | case3 previous c cs htag part rest hsplit ih =>
      have hsource : part ++ source rest = cs := by
        rw [← source_splitTags c cs, hsplit]
      rw [hsplit] at ih
      obtain ⟨htagless, hrest⟩ := ih (List.getLast?_concat (l := before)) hend.tail
      refine ⟨htagless.cons fun hc hadmits => ?_, ?_⟩
      · subst hc
        rw [← List.append_assoc, hsource, hend.head?_append (by decide)]
        rw [hprevious] at hadmits
        simpa [startsTag, show admitsTag previous = true from hadmits] using htag
      · rwa [List.append_assoc] at hrest

/-! ### Sources -/

theorem endsComment_take (cs : Text) :
    EndsComment ('/' :: '*' :: cs.take (throughLength ['*', '/'] cs))
      (cs.drop (throughLength ['*', '/'] cs)) := by
  intro _
  rcases (endsThrough_throughLength cs).ending with ⟨body, hbody⟩ | hafter
  · refine .inr ?_
    rw [← hbody, List.getLast?_cons_cons, List.getLast?_cons]
    simp
  · exact .inl hafter

/-- A comment starts with a part that is no tag. -/
theorem splitJavadoc_slash (t : Text) :
    splitJavadoc ⟨.javadoc, '/' :: t⟩ =
      ⟨.javadoc, '/' :: (splitTags '/' t).1⟩ :: (splitTags '/' t).2 := by
  have hsplit : splitTags '/' ('/' :: t) = ('/' :: (splitTags '/' t).1, (splitTags '/' t).2) := by
    rw [splitTags, if_neg (by simp [startsTag])]
  rw [splitJavadoc, if_pos rfl, hsplit]
  rfl

/-- The lexemes of a construct are what their kinds say. -/
theorem construct_tags_mean {kind : TokenKind} {n : Nat} (before : Text)
    (h : construct c cs = (kind, n)) :
    TagsMeanIn before (cs.drop n) (splitJavadoc ⟨kind, c :: cs.take n⟩) := by
  by_cases hkind : kind = .javadoc
  · subst hkind
    obtain ⟨ds, rfl, rfl, -, rfl⟩ := javadoc_cases h
    obtain ⟨htagless, hrest⟩ :=
      splitTags_mean (List.getLast?_concat (l := before)) (endsComment_take ds).tail
    rw [splitJavadoc_slash]
    refine ⟨htagless.cons fun hc => absurd hc (by decide), ?_⟩
    rwa [List.append_assoc] at hrest
  · have htag : kind ≠ .javadocTag := by
      rintro rfl
      exact construct_ne_javadocTag c cs n h
    rw [splitJavadoc_of_ne hkind]
    exact ⟨tagsMean_of_ne hkind htag, trivial⟩

theorem lexemes_tags_mean (before t : Text) : TagsMeanIn before [] (lexemes t) := by
  fun_induction constructs t generalizing before with
  | case1 => rw [lexemes_nil]; trivial
  | case2 c cs kind n hconstruct ih =>
      rw [lexemes_cons, hconstruct, tagsMeanIn_append, source_lexemes, List.append_nil]
      exact ⟨construct_tags_mean before hconstruct, ih _⟩

end Java

end SourceMarkup
