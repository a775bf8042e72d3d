import SourceMarkup.Proofs.Scan.JavaChecked
import SourceMarkup.Proofs.Scan.Language
import SourceMarkup.Proofs.Scan.XmlChecked

/-!
# Safety and progress of the scans

A checked scan of a source has the tokens of the scan, whatever the source is: no place is
out of bounds, and every loop ends.
-/

namespace SourceMarkup

open Scan

namespace Language

def constructRound : Language → Scan → Round Scan
  | .java => Java.constructRound
  | .xml => Xml.constructRound

def checkedTokens : Language → Text → Checked (List Token)
  | .java => Java.Checked.tokens
  | .xml => Xml.Checked.tokens

theorem checkedTokens_eq_pure (language : Language) (source : Text) :
    language.checkedTokens source = pure (language.tokens source) := by
  cases language with
  | java => exact Java.Checked.tokens_eq_pure source
  | xml => exact Xml.Checked.tokens_eq_pure source

/-- The scan of a source stops at its end and nowhere else. -/
theorem constructRound_cases (language : Language) (s : Scan) :
    s.peek = none ∧ language.constructRound s = .done s ∨
      ∃ t, language.constructRound s = .again t ∧ Advances s t := by
  cases hpeek : s.peek with
  | none =>
      refine .inl ⟨rfl, ?_⟩
      cases language with
      | java => rw [constructRound, Java.constructRound, hpeek]
      | xml => rw [constructRound, Xml.constructRound, hpeek]
  | some c =>
      right
      cases language with
      | java =>
          refine ⟨Java.scanConstruct c s, ?_, Java.advances_scanConstruct hpeek⟩
          rw [constructRound, Java.constructRound, hpeek]
      | xml =>
          refine ⟨Xml.scanConstruct c s, ?_, Xml.advances_scanConstruct hpeek⟩
          rw [constructRound, Xml.constructRound, hpeek]

/-- Scans are safe and come to an end. For every source the checked scan has no fault, so
that the cursor is never beyond the end, every slice lies in the source, and every loop ends
after at most one round for each byte that is left and another one; its answer is that of
the scan, and the tokens follow each other. From any place in a source, every round over a
construct advances until the end is reached. Where `<` starts a tag this holds wherever the
loop over the tag stops, which may be at a stray `<` that it leaves to the next round. The
rounds of all other loops advance too, the last ones included. Apart from the end of the
source, there are four places where a last one leaves the cursor where it stands: at a stray
`<` in a tag, at the newline that ends a literal, after a number, and after a run of
characters. -/
theorem tokens_checked :
    (∀ (language : Language) (source : Text),
      language.checkedTokens source = .ok (language.tokens source) ∧
        (language.tokens source).Pairwise fun t u => t.stop ≤ u.start) ∧
      (∀ (language : Language) (s : Scan),
        s.peek = none ∧ language.constructRound s = .done s ∨
          ∃ t, language.constructRound s = .again t ∧ Advances s t) ∧
      (∀ s : Scan, s.peek = none ∨ Advances s (Xml.scanTagFromName s)) ∧
      Forward id (fun c => c == '<') Xml.tagRound ∧
      Forward Prod.fst (fun _ => false) Java.javadocRound ∧
      (∀ quote, Forward id (fun c => c == '\n') (Java.quotedRound quote)) ∧
      Forward id (fun _ => false) Java.textBlockRound ∧
      (∀ isExponent, Forward id (fun c => !Java.isNumberPart c) (Java.numberRound isExponent)) ∧
      ∀ p, Forward id (fun c => !p c) (whileRound p) := by
  refine ⟨fun language source => ⟨?_, language.pairwise_tokens source⟩, constructRound_cases,
    fun s => ?_, Xml.forward_tagRound, Java.forward_javadocRound, Java.forward_quotedRound,
    Java.forward_textBlockRound, Java.forward_numberRound, forward_whileRound⟩
  · exact language.checkedTokens_eq_pure source
  · cases hpeek : s.peek with
    | none => exact .inl rfl
    | some c => exact .inr (Xml.advances_scanTagFromName hpeek)

/-- The stray `<` behind an open tag is a round of its own. -/
theorem tokens_checked_stray :
    Language.xml.checkedTokens ['<', 'a', '<'] = .ok [⟨.xmlTag, 0, 2⟩] := by
  have htokens : Language.xml.tokens ['<', 'a', '<'] = [⟨.xmlTag, 0, 2⟩] := by
    rw [tokens_eq]
    show Lexeme.tokensFrom 0 (Xml.lexemesFrom .content ['<', 'a', '<']) = _
    rw [Xml.lexemesFrom_cons, show List.drop _ ['a', '<'] = ['<'] from rfl,
      Xml.lexemesFrom_cons, List.drop_nil, Xml.lexemesFrom_nil]
    rfl
  have hrun := (tokens_checked.1 .xml ['<', 'a', '<']).1
  rwa [htokens] at hrun

end Language

end SourceMarkup
