import SourceMarkup.Proofs.Markup.Items
import SourceMarkup.Proofs.Style.Scheme

/-!
# Classes and styles are the same styling

Markup with classes and its style sheet say together what markup with styles says alone.
A sheet is read here as its entries, and `restyle` puts the declarations of a class in
place of the class in an opening tag. `mapTags` does so in a whole markup, of which it
knows only what a tag is. The text between the tags stays, as it was escaped.
-/

namespace SourceMarkup

namespace Markup

open Lexeme

variable {scheme other : Attributes} {styles : StyleScheme}

/-! ### Tags rewritten -/

def openingTag (attributes : Text) : Text :=
  "<span ".toList ++ attributes ++ ['>']

/-- A markup with each of its tags rewritten by `f`, where a tag is what `readTags`
takes for one. -/
def mapTags (f : Text → Text) : Text → Text :=
  foldTags (fun tag rest => f tag ++ rest) (fun c rest => c :: rest) []

theorem mapTags_append (f : Text → Text) {u : Text} (hu : '<' ∉ u) (t : Text) :
    mapTags f (u ++ t) = u ++ mapTags f t := by
  rw [mapTags, foldTags_append _ _ _ hu, List.foldr_cons_eq_append']

theorem mapTags_tag (f : Text → Text) {a : Text} (ha : '>' ∉ a) (t : Text) :
    mapTags f ('<' :: (a ++ '>' :: t)) = f ('<' :: (a ++ ['>'])) ++ mapTags f t :=
  foldTags_tag _ _ _ ha t

/-- Two schemes whose opening tags `f` takes to each other render to markups that it
takes to each other. -/
theorem mapTags_renderLexeme {f : Text → Text} (hscheme : StayInTag scheme)
    (hopening : ∀ kind, (scheme kind).map (f ∘ openingTag) = (other kind).map openingTag)
    (hclosing : f "</span>".toList = "</span>".toList) (lexeme : Lexeme) (t : Text) :
    mapTags f (renderLexeme scheme lexeme ++ t) = renderLexeme other lexeme ++ mapTags f t := by
  have htext : '<' ∉ escape lexeme.text := (isEscaped_escape lexeme.text).no_opening
  have hkind : (spanAttributes? scheme lexeme.kind).map (f ∘ openingTag) =
      (spanAttributes? other lexeme.kind).map openingTag := by
    rw [spanAttributes?, spanAttributes?]
    split
    · rfl
    · exact hopening lexeme.kind
  rw [renderLexeme, renderLexeme]
  cases ha : spanAttributes? scheme lexeme.kind with
  | none =>
      rw [ha, Option.map_none, eq_comm, Option.map_eq_none_iff] at hkind
      rw [hkind]
      exact mapTags_append f htext t
  | some a =>
      rw [ha, Option.map_some, eq_comm, Option.map_eq_some_iff] at hkind
      obtain ⟨b, hb, htag⟩ := hkind
      have hinside : '>' ∉ "span ".toList ++ a := by simp [hscheme.not_mem ha]
      have hopen : f ('<' :: ("span ".toList ++ a ++ ['>'])) = openingTag b := htag.symm
      have hclose : f ('<' :: ("/span".toList ++ ['>'])) = "</span>".toList := hclosing
      have hother : span b (escape lexeme.text) =
          openingTag b ++ escape lexeme.text ++ "</span>".toList := rfl
      rw [hb]
      dsimp only
      rw [span_append_tags, mapTags_tag f hinside, mapTags_append f htext,
        mapTags_tag f (by decide), hopen, hclose, hother, List.append_assoc, List.append_assoc]

theorem mapTags_renderLexemes {f : Text → Text} (hscheme : StayInTag scheme)
    (hopening : ∀ kind, (scheme kind).map (f ∘ openingTag) = (other kind).map openingTag)
    (hclosing : f "</span>".toList = "</span>".toList) (ls : List Lexeme) :
    mapTags f (renderLexemes scheme ls) = renderLexemes other ls := by
  induction ls with
  | nil => exact foldTags_nil _ _ _
  | cons l ls ih =>
      rw [renderLexemes, List.flatMap_cons, mapTags_renderLexeme hscheme hopening hclosing,
        ← renderLexemes, ih]
      rfl

/-! ### Style sheets -/

def sheetLine (entry : TokenKind × Text) : Text :=
  ['.'] ++ className entry.1 ++ " \x7b ".toList ++ entry.2 ++ " \x7d\n".toList

def classAttribute (kind : TokenKind) : Text :=
  "class=\"".toList ++ className kind ++ ['"']

def styleAttribute (declarations : Text) : Text :=
  "style=\"".toList ++ declarations ++ ['"']

/-- A tag with the declarations of its class in place of the class, where it is the
opening tag of a class of the sheet. -/
def restyle (sheet : List (TokenKind × Text)) (tag : Text) : Text :=
  match sheet.find? fun entry => tag = openingTag (classAttribute entry.1) with
  | some entry => openingTag (styleAttribute entry.2)
  | none => tag

/-- What a sheet says of a style scheme. There is an entry for each kind that has rules,
in the order in which the kinds are declared, and these kinds are those with attributes. -/
structure IsSheet (styles : StyleScheme) (sheet : List (TokenKind × Text)) : Prop where
  ordered : sheet.Pairwise fun e f => e.1.ctorIdx < f.1.ctorIdx
  kinds : ∀ kind, kind ∈ sheet.map Prod.fst ↔ styles.rules kind ≠ []
  lines : stylesheet styles = sheet.flatMap sheetLine
  styled : ∀ entry ∈ sheet, inlineAttributes styles entry.1 = some (styleAttribute entry.2) ∧
    classAttributes styles entry.1 = some (classAttribute entry.1)
  bare : ∀ kind ∉ sheet.map Prod.fst,
    inlineAttributes styles kind = none ∧ classAttributes styles kind = none

theorem exists_isSheet (styles : StyleScheme) : ∃ sheet, IsSheet styles sheet := by
  have hkinds : (styles.supportedKinds.map fun kind =>
      (kind, styles.declarations kind)).map Prod.fst = styles.supportedKinds := by
    rw [List.map_map]
    exact List.map_id _
  refine ⟨styles.supportedKinds.map fun kind => (kind, styles.declarations kind),
    ?_, ?_, ?_, ?_, ?_⟩
  · exact List.pairwise_map.2 styles.pairwise_supportedKinds
  · rw [hkinds]
    exact styles.mem_supportedKinds
  · rw [stylesheet, List.flatMap_map]
    rfl
  · intro entry hentry
    obtain ⟨kind, hkind, rfl⟩ := List.mem_map.1 hentry
    have hrules : (styles.rules kind).isEmpty = false :=
      List.isEmpty_eq_false_iff.2 ((styles.mem_supportedKinds kind).1 hkind)
    rw [inlineAttributes, classAttributes, hrules]
    exact ⟨rfl, rfl⟩
  · intro kind hkind
    rw [hkinds, styles.mem_supportedKinds, not_not] at hkind
    rw [inlineAttributes, classAttributes, hkind]
    exact ⟨rfl, rfl⟩

theorem openingTag_inj {a b : Text} (h : openingTag a = openingTag b) : a = b := by
  unfold openingTag at h
  rwa [List.append_left_inj, List.append_right_inj] at h

theorem classAttribute_inj {j k : TokenKind} (h : classAttribute j = classAttribute k) :
    j = k := by
  unfold classAttribute at h
  rw [List.append_left_inj, List.append_right_inj] at h
  unfold className at h
  rw [List.append_right_inj] at h
  exact TokenKind.eq_of_cssName_eq h

theorem restyle_closingTag (sheet : List (TokenKind × Text)) :
    restyle sheet "</span>".toList = "</span>".toList := by
  have hnone : sheet.find? (fun entry => "</span>".toList = openingTag (classAttribute entry.1)) =
      none := by
    rw [List.find?_eq_none]
    intro entry _
    unfold openingTag
    simp
  rw [restyle, hnone]

namespace IsSheet

variable {sheet : List (TokenKind × Text)}

/-- A class has its declarations from the one entry of its kind. -/
theorem restyle_openingTag (h : IsSheet styles sheet) {entry : TokenKind × Text}
    (hentry : entry ∈ sheet) :
    restyle sheet (openingTag (classAttribute entry.1)) =
      openingTag (styleAttribute entry.2) := by
  rw [restyle]
  split
  · next found hfound =>
      have htag := List.find?_some hfound
      have hkind : found.1 = entry.1 := by
        simp only [decide_eq_true_eq] at htag
        exact (classAttribute_inj (openingTag_inj htag)).symm
      have hstyle := (h.styled found (List.mem_of_find?_eq_some hfound)).1
      rw [hkind, (h.styled entry hentry).1] at hstyle
      rw [← Option.some.inj hstyle]
  · next hnone =>
      have hne := List.find?_eq_none.1 hnone entry hentry
      simp at hne

theorem mapTags_renderLexemes (h : IsSheet styles sheet) (ls : List Lexeme) :
    mapTags (restyle sheet) (renderLexemes (classAttributes styles) ls) =
      renderLexemes (inlineAttributes styles) ls := by
  refine Markup.mapTags_renderLexemes (stayInTag_classAttributes styles) ?_
    (restyle_closingTag sheet) ls
  intro kind
  by_cases hkind : kind ∈ sheet.map Prod.fst
  · obtain ⟨entry, hentry, rfl⟩ := List.mem_map.1 hkind
    obtain ⟨hinline, hclass⟩ := h.styled entry hentry
    rw [hinline, hclass, Option.map_some, Option.map_some, Function.comp,
      h.restyle_openingTag hentry]
  · obtain ⟨hinline, hclass⟩ := h.bare kind hkind
    rw [hinline, hclass]
    rfl

/-- Every class of a markup has an entry. -/
theorem mem_readTags (h : IsSheet styles sheet) {ls : List Lexeme} {tag : Text}
    (htag : tag ∈ (readTags (renderLexemes (classAttributes styles) ls)).2) :
    tag = "</span>".toList ∨ ∃ entry ∈ sheet, tag = openingTag (classAttribute entry.1) := by
  rw [← flatMap_written, readTags_items] at htag
  · obtain ⟨item, hitem, htag⟩ := List.mem_flatMap.1 htag
    obtain ⟨l, -, rfl⟩ := List.mem_map.1 hitem
    rw [itemOf, spanAttributes?] at htag
    split at htag
    · exact absurd htag List.not_mem_nil
    by_cases hkind : l.kind ∈ sheet.map Prod.fst
    · obtain ⟨entry, hentry, hfst⟩ := List.mem_map.1 hkind
      rw [← hfst, (h.styled entry hentry).2] at htag
      rcases List.mem_pair.1 htag with rfl | rfl
      · exact .inr ⟨entry, hentry, rfl⟩
      · exact .inl rfl
    · rw [(h.bare l.kind hkind).2] at htag
      exact absurd htag List.not_mem_nil
  · intro item hitem
    obtain ⟨l, -, rfl⟩ := List.mem_map.1 hitem
    exact clean_itemOf (stayInTag_classAttributes styles) l

end IsSheet

/-! ### Covers -/

/-- A cover cuts a source into lexemes. -/
theorem exists_lexemes_of_tiles (before : Text) {rest : Text} {tokens : List Token}
    (h : Token.Tiles before.byteLength (before ++ rest).byteLength tokens)
    (hstops : ∀ token ∈ tokens, (before ++ rest).IsBoundary token.stop) :
    ∃ ls, source ls = rest ∧ tokens = spansFrom before.byteLength ls := by
  induction tokens generalizing before rest with
  | nil =>
      have hlength : rest.byteLength = 0 := by
        rw [Token.tiles_nil, Text.byteLength_append] at h
        omega
      exact ⟨[], (Text.byteLength_eq_zero_iff.1 hlength).symm, rfl⟩
  | cons token tokens ih =>
      obtain ⟨hstart, hlt, htokens⟩ := h
      obtain ⟨hstop, hstops⟩ := List.forall_mem_cons.1 hstops
      obtain ⟨u, after, hsplit, hu⟩ := hstop
      obtain ⟨text, rfl, rfl⟩ : ∃ text, u = before ++ text ∧ rest = text ++ after := by
        rcases List.append_eq_append_iff.1 hsplit with ⟨text, hu', hrest⟩ | ⟨text, hbefore, -⟩
        · exact ⟨text, hu', hrest⟩
        · rw [hbefore, Text.byteLength_append] at hstart
          omega
      rw [hu, ← List.append_assoc] at htokens
      rw [← List.append_assoc] at hstops
      obtain ⟨ls, hls, htail⟩ := ih _ htokens hstops
      refine ⟨⟨token.kind, text⟩ :: ls, by rw [source_cons, hls], ?_⟩
      rw [spansFrom, htail, ← Text.byteLength_append, ← hu, ← hstart]

/-- Markup with classes and its style sheet say what markup with styles says. The scheme
may be built up in any way: its rules are those it began with and then, for each kind, what
was registered for it in turn. Every cover of every source can be rendered with both. -/
theorem classBased_restyled (start : StyleScheme)
    (entries : List (TokenKind × List StyleRule)) :
    (∀ kind, (start.registerAll entries).rules kind =
      start.rules kind ++ (entries.filter fun entry => entry.1 = kind).flatMap Prod.snd) ∧
    ∃ sheet, IsSheet (start.registerAll entries) sheet ∧
      ∀ source tokens, Token.Tiles 0 source.byteLength tokens →
        (∀ token ∈ tokens, source.IsBoundary token.start ∧ source.IsBoundary token.stop) →
        ∃ html, render? (classAttributes (start.registerAll entries)) source tokens =
            some html ∧
          render? (inlineAttributes (start.registerAll entries)) source tokens =
            some (mapTags (restyle sheet) html) ∧
          ∀ tag ∈ (readTags html).2, tag = "</span>".toList ∨
            ∃ entry ∈ sheet, tag = openingTag (classAttribute entry.1) := by
  refine ⟨start.rules_registerAll entries, ?_⟩
  obtain ⟨sheet, hsheet⟩ := exists_isSheet (start.registerAll entries)
  refine ⟨sheet, hsheet, fun source tokens htiles hbounds => ?_⟩
  obtain ⟨ls, rfl, rfl⟩ := exists_lexemes_of_tiles [] htiles
    fun token htoken => (hbounds token htoken).2
  have hcut : (spansFrom 0 ls).mapM (lexeme? (Lexeme.source ls)) = some ls :=
    mapM_lexeme?_spansFrom [] ls
  refine ⟨renderLexemes (classAttributes (start.registerAll entries)) ls, ?_, ?_, ?_⟩
  · exact congrArg _ hcut
  · rw [hsheet.mapTags_renderLexemes]
    exact congrArg _ hcut
  · exact fun tag htag => hsheet.mem_readTags htag

theorem classBased_restyled_keyword :
    ∃ sheet, IsSheet ((StyleScheme.empty .idea).registerAll [(.keyword, [.bold])]) sheet ∧
      mapTags (restyle sheet) "<span class=\"sv-keyword\">if</span>(".toList =
        "<span style=\"font-weight:bold;\">if</span>(".toList := by
  obtain ⟨-, sheet, hsheet, hmarkup⟩ :=
    classBased_restyled (.empty .idea) [(.keyword, [.bold])]
  have hbounds : ∀ token ∈ [Token.mk .keyword 0 2, Token.mk .plain 2 3],
      Text.IsBoundary ['i', 'f', '('] token.start ∧
        Text.IsBoundary ['i', 'f', '('] token.stop := by
    simp only [List.mem_cons, List.not_mem_nil, or_false, forall_eq_or_imp, forall_eq]
    exact ⟨⟨⟨[], _, rfl, by decide⟩, ⟨['i', 'f'], _, rfl, by decide⟩⟩,
      ⟨⟨['i', 'f'], _, rfl, by decide⟩, ⟨['i', 'f', '('], [], rfl, by decide⟩⟩⟩
  obtain ⟨html, hclass, hinline, -⟩ :=
    hmarkup ['i', 'f', '('] [⟨.keyword, 0, 2⟩, ⟨.plain, 2, 3⟩]
      ⟨rfl, by decide, rfl, by decide, rfl⟩ hbounds
  refine ⟨sheet, hsheet, ?_⟩
  have hhtml : html = "<span class=\"sv-keyword\">if</span>(".toList :=
    (Option.some.inj (hclass.symm.trans (by decide)))
  rw [← hhtml]
  exact Option.some.inj (hinline.symm.trans (by decide))

end Markup

end SourceMarkup
