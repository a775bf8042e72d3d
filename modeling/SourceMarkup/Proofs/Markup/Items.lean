import Mathlib.Data.List.Forall2
import SourceMarkup.Proofs.Markup.Escape
import SourceMarkup.Proofs.Markup.Render
import SourceMarkup.Proofs.Markup.Scheme

/-!
# The items of highlighted markup

Highlighted markup is a row of items, one for each token of the cover: an escaped
text that stands bare or in a span. No span stands in another, as an item holds one
text. `readTags` reads any markup without knowing how it was made: it takes what
stands between `<` and the next `>` for a tag. In highlighted markup it finds the
tags of the items and nothing else, so no part of a source is read as a tag.
-/

namespace SourceMarkup

namespace Markup

open Lexeme

/-- A text in markup, with the attributes of its span if it stands in one. -/
structure Item where
  attributes : Option Text
  text : Text

namespace Item

def written : Item → Text
  | ⟨some attributes, text⟩ => span attributes text
  | ⟨none, text⟩ => text

def tags : Item → List Text
  | ⟨some attributes, _⟩ => ["<span ".toList ++ attributes ++ ['>'], "</span>".toList]
  | ⟨none, _⟩ => []

end Item

/-- A markup taken in from its end, by tags and by characters outside of tags. A tag goes
from `<` through the next `>`, or to the end. -/
def foldTags {β : Type} (tag : Text → β → β) (char : Char → β → β) (last : β) : Text → β
  | [] => last
  | c :: cs =>
      if c = '<' then
        let n := throughLength ['>'] cs
        tag (c :: cs.take n) (foldTags tag char last (cs.drop n))
      else char c (foldTags tag char last cs)
  termination_by t => t.length
  decreasing_by all_goals simp only [List.length_cons, List.length_drop]; omega

def readTags : Text → Text × List Text :=
  foldTags (fun tag rest => (rest.1, tag :: rest.2)) (fun c rest => (c :: rest.1, rest.2)) ([], [])

section FoldTags

variable {β : Type} (tag : Text → β → β) (char : Char → β → β) (last : β)

@[simp] theorem foldTags_nil : foldTags tag char last [] = last := by
  rw [foldTags]

theorem foldTags_append {u : Text} (hu : '<' ∉ u) (t : Text) :
    foldTags tag char last (u ++ t) = u.foldr char (foldTags tag char last t) := by
  induction u with
  | nil => rfl
  | cons c cs ih =>
      obtain ⟨hc, hcs⟩ := List.ne_and_not_mem_of_not_mem_cons hu
      rw [List.cons_append, foldTags, if_neg hc.symm, ih hcs, List.foldr_cons]

theorem foldTags_tag {a : Text} (ha : '>' ∉ a) (t : Text) :
    foldTags tag char last ('<' :: (a ++ '>' :: t)) =
      tag ('<' :: (a ++ ['>'])) (foldTags tag char last t) := by
  have hlength : throughLength ['>'] (a ++ '>' :: t) = (a ++ ['>']).length := by
    rw [throughLength_append ha, List.length_append]
    rfl
  rw [foldTags, if_pos rfl, hlength, List.append_cons a '>' t]
  simp only [List.take_left, List.drop_left]

end FoldTags

theorem readTags_append {u : Text} (hu : '<' ∉ u) (t : Text) :
    readTags (u ++ t) = (u ++ (readTags t).1, (readTags t).2) := by
  have hfold (read : Text × List Text) :
      u.foldr (fun c rest => (c :: rest.1, rest.2)) read = (u ++ read.1, read.2) := by
    induction u with
    | nil => rfl
    | cons c cs ih => rw [List.foldr_cons, ih (List.not_mem_of_not_mem_cons hu), List.cons_append]
  rw [readTags, foldTags_append _ _ _ hu, hfold]

theorem readTags_tag {a : Text} (ha : '>' ∉ a) (t : Text) :
    readTags ('<' :: (a ++ '>' :: t)) =
      ((readTags t).1, ('<' :: (a ++ ['>'])) :: (readTags t).2) :=
  foldTags_tag _ _ _ ha t

theorem span_append_tags (a text t : Text) :
    span a text ++ t =
      '<' :: (("span ".toList ++ a) ++ '>' :: (text ++ ('<' :: ("/span".toList ++ '>' :: t)))) :=
  span_append a text t

/-- An item whose tags end where they should and whose text holds none. -/
structure Item.Clean (item : Item) : Prop where
  attributes_clean : ∀ a, item.attributes = some a → '>' ∉ a
  text_clean : '<' ∉ item.text

theorem readTags_written {item : Item} (h : item.Clean) (t : Text) :
    readTags (item.written ++ t) =
      (item.text ++ (readTags t).1, item.tags ++ (readTags t).2) := by
  obtain ⟨attributes, text⟩ := item
  cases attributes with
  | none => exact readTags_append h.text_clean t
  | some a =>
      have hopening : '>' ∉ "span ".toList ++ a := by
        simp [h.attributes_clean a rfl]
      rw [Item.written, span_append_tags, readTags_tag hopening, readTags_append h.text_clean,
        readTags_tag (by decide)]
      rfl

theorem readTags_items {items : List Item} (h : ∀ item ∈ items, item.Clean) :
    readTags (items.flatMap Item.written) =
      (items.flatMap Item.text, items.flatMap Item.tags) := by
  induction items with
  | nil => exact foldTags_nil _ _ _
  | cons item items ih =>
      have hrest := ih fun i hi => h i (List.mem_cons_of_mem item hi)
      rw [List.flatMap_cons, readTags_written (h item List.mem_cons_self), hrest]
      rfl

/-! ### Items of lexemes -/

def itemOf (scheme : Attributes) (lexeme : Lexeme) : Item :=
  ⟨spanAttributes? scheme lexeme.kind, escape lexeme.text⟩

variable {scheme : Attributes}

theorem written_itemOf (scheme : Attributes) (lexeme : Lexeme) :
    (itemOf scheme lexeme).written = renderLexeme scheme lexeme := by
  rw [itemOf, renderLexeme]
  cases spanAttributes? scheme lexeme.kind <;> rfl

theorem flatMap_written (scheme : Attributes) (ls : List Lexeme) :
    (ls.map (itemOf scheme)).flatMap Item.written = renderLexemes scheme ls := by
  rw [List.flatMap_map, renderLexemes]
  exact List.flatMap_congr fun l _ => written_itemOf scheme l

theorem flatMap_text (scheme : Attributes) (ls : List Lexeme) :
    (ls.map (itemOf scheme)).flatMap Item.text = escape (source ls) := by
  induction ls with
  | nil => rfl
  | cons l ls ih =>
      rw [List.map_cons, List.flatMap_cons, ih, source_cons, escape_append]
      rfl

theorem StayInTag.not_mem {kind : TokenKind} {a : Text} (h : StayInTag scheme)
    (ha : spanAttributes? scheme kind = some a) : '>' ∉ a := by
  intro hmem
  rw [spanAttributes?] at ha
  split at ha
  · contradiction
  · have hstays := List.all_eq_true.1 (h kind a ha) '>' hmem
    exact absurd hstays (by decide)

theorem clean_itemOf (h : StayInTag scheme) (lexeme : Lexeme) :
    (itemOf scheme lexeme).Clean :=
  ⟨fun _ ha => h.not_mem ha, (isEscaped_escape lexeme.text).no_opening⟩

theorem forall₂_spansFrom (scheme : Attributes) (before : Text) {ls : List Lexeme}
    (h : Solid ls) :
    List.Forall₂
      (fun token item => ∃ text, token.text? (before ++ source ls) = some text ∧
        text ≠ [] ∧
        item = ⟨if token.kind = .plain then none else scheme token.kind, escape text⟩)
      (spansFrom before.byteLength ls) (ls.map (itemOf scheme)) := by
  induction ls generalizing before with
  | nil => exact List.Forall₂.nil
  | cons l ls ih =>
      have hrest := ih (before ++ l.text) h.tail
      rw [Text.byteLength_append, List.append_assoc] at hrest
      refine List.Forall₂.cons ⟨l.text, ?_, h.head, rfl⟩ hrest
      exact Text.slice?_append before l.text (source ls)

/-- No part of a source can become markup. Highlighted markup is a row of items, one
for each token of the cover, with the attributes of its kind and its text escaped.
Whoever reads the markup finds the tags of the items and the escaped source. -/
theorem highlight_items (settings : Settings) (source : Text) :
    ∃ items : List Item,
      highlight? settings source = some (items.flatMap Item.written) ∧
      List.Forall₂
        (fun token item => ∃ text, token.text? source = some text ∧ text ≠ [] ∧
          item = ⟨if token.kind = .plain then none else schemeOf settings token.kind,
            escape text⟩)
        (settings.language.cover source) items ∧
      (∀ item ∈ items, IsEscaped item.text ∧ item.text ≠ []) ∧
      items.flatMap Item.text = escape source ∧
      readTags (items.flatMap Item.written) =
        (escape source, items.flatMap Item.tags) := by
  have hsource := settings.language.source_lexemes source
  have hsolid := solid_merge (settings.language.solid_lexemes source)
  have hmerge : Lexeme.source (merge (settings.language.lexemes source)) = source := by
    rw [source_merge, hsource]
  have htext := flatMap_text (schemeOf settings)
    (merge (settings.language.lexemes source))
  rw [hmerge] at htext
  refine ⟨(merge (settings.language.lexemes source)).map (itemOf (schemeOf settings)),
    ?_, ?_, ?_, htext, ?_⟩
  · rw [flatMap_written, highlight?, render?, mapM_lexeme?_cover]
    rfl
  · have hitems := forall₂_spansFrom (schemeOf settings) [] hsolid
    rw [hmerge] at hitems
    rw [settings.language.cover_eq]
    exact hitems
  · intro item hitem
    obtain ⟨l, hl, rfl⟩ := List.mem_map.1 hitem
    exact ⟨isEscaped_escape l.text, fun h => hsolid l hl (escape_eq_nil_iff.1 h)⟩
  · rw [readTags_items, htext]
    intro item hitem
    obtain ⟨l, -, rfl⟩ := List.mem_map.1 hitem
    exact clean_itemOf (stayInTag_schemeOf settings) l

end Markup

end SourceMarkup
