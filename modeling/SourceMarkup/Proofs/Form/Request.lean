import Mathlib.Data.List.Forall2
import SourceMarkup.Form.Request
import SourceMarkup.Proofs.Text.Split

/-!
# What a body writes

A body is read segment by segment, but what it writes can be told at once. Cut at
every ampersand, it is a list of segments, and those with an equals sign are its
pairs. `Reaches` says that a pair is read as a pair: every pair before it writes a
parameter, and none of these is the source. `Reads` tells the outcome by the pair at
which reading ends, if there is one, and the main statement says that parsing has
exactly that outcome, whether it is a request or an error.
-/

namespace SourceMarkup

open Text

namespace Form

namespace Request

variable {c : Char}

/-! ### Cutting a text in two -/

theorem before_cons_self (c : Char) (t : Text) : before c (c :: t) = [] := by
  simp [before]

theorem after_cons_self (c : Char) (t : Text) : after c (c :: t) = t := by
  simp [after]

theorem before_cons_of_ne {d : Char} (h : d ≠ c) (t : Text) :
    before c (d :: t) = d :: before c t := by
  simp [before, h]

theorem after_cons_of_ne {d : Char} (h : d ≠ c) (t : Text) :
    after c (d :: t) = after c t := by
  simp [after, h]

/-- A text is cut at its first `c`, wherever that is. -/
theorem before_append {s : Text} (h : c ∉ s) (t : Text) :
    before c (s ++ c :: t) = s := by
  induction s with
  | nil => exact before_cons_self c t
  | cons d ds ih =>
      rw [List.cons_append, before_cons_of_ne (List.ne_of_not_mem_cons h).symm,
        ih (List.not_mem_of_not_mem_cons h)]

theorem after_append {s : Text} (h : c ∉ s) (t : Text) : after c (s ++ c :: t) = t := by
  induction s with
  | nil => exact after_cons_self c t
  | cons d ds ih =>
      rw [List.cons_append, after_cons_of_ne (List.ne_of_not_mem_cons h).symm,
        ih (List.not_mem_of_not_mem_cons h)]

theorem not_mem_before (c : Char) (t : Text) : c ∉ before c t := by
  intro h
  have hne := List.all_eq_true.1 List.all_takeWhile c h
  simp at hne

theorem before_append_after {t : Text} (h : c ∈ t) :
    before c t ++ c :: after c t = t := by
  induction t with
  | nil => exact absurd h List.not_mem_nil
  | cons d ds ih =>
      by_cases hd : d = c
      · subst hd
        rw [before_cons_self, after_cons_self, List.nil_append]
      · have hds : c ∈ ds := (List.mem_cons.1 h).resolve_left (Ne.symm hd)
        rw [before_cons_of_ne hd, after_cons_of_ne hd, List.cons_append, ih hds]

/-- The first part of a text, and the parts of what is left. -/
theorem exists_splitOn_eq (c : Char) (t : Text) :
    ∃ parts, splitOn c t = before c t :: parts ∧
      (parts = [] ∧ after c t = [] ∨ parts = splitOn c (after c t)) := by
  induction t with
  | nil => exact ⟨[], rfl, Or.inl ⟨rfl, rfl⟩⟩
  | cons d ds ih =>
      obtain ⟨parts, hsplit, hparts⟩ := ih
      by_cases hd : d = c
      · subst hd
        exact ⟨splitOn d ds, by rw [splitOn_cons_self, before_cons_self],
          Or.inr (by rw [after_cons_self])⟩
      · refine ⟨parts, ?_, ?_⟩
        · rw [splitOn_cons_of_ne hd hsplit, before_cons_of_ne hd]
        · rwa [after_cons_of_ne hd]

/-! ### Pairs and parameters -/

/-- The key and the value of a segment as they are written, if it has an equals
sign. -/
def pair? (segment : Text) : Option (Text × Text) :=
  if segment.contains '=' then some (before '=' segment, after '=' segment) else none

/-- A written pair stands for a parameter, which is not the source. -/
def StandsFor (written param : Text × Text) : Prop :=
  Percent.decode written.1 = .ok param.1 ∧ Percent.decode written.2 = .ok param.2 ∧
    param.1 ≠ sourceKey

/-- The pairs among segments stand for parameters, one for one. Segments without an
equals sign stand for nothing, whatever is in them. -/
def Writes (segments : List Text) (params : List (Text × Text)) : Prop :=
  List.Forall₂ StandsFor (segments.filterMap pair?) params

/-- The segment `key=value` of a body, where `rest` is all of the body after that
equals sign, and the segments before it write `params`. -/
def Reaches (body : Text) (params : List (Text × Text)) (key value rest : Text) :
    Prop :=
  ∃ front behind,
    splitOn '&' body = front ++ (key ++ '=' :: value) :: behind ∧ '=' ∉ key ∧
      Writes front params ∧
      body = front.flatMap (· ++ ['&']) ++ (key ++ '=' :: rest)

/-- What reading a body comes to. It ends with the pair that is the source, with the
first pair that cannot be read, or with the body. -/
inductive Reads (body : Text) : Except RequestError Request → Prop
  | params {ps} (hps : Writes (splitOn '&' body) ps) : Reads body (.ok ⟨ps, none⟩)
  | source {ps key value rest decoded text} (hreach : Reaches body ps key value rest)
      (hkey : Percent.decode key = .ok sourceKey)
      (hrest : Percent.decode rest = .ok decoded)
      (htext : Markup.Reference.decode decoded = .ok text) :
      Reads body (.ok ⟨ps, some text⟩)
  | keyError {ps key value rest e} (hreach : Reaches body ps key value rest)
      (hkey : Percent.decode key = .error e) : Reads body (.error (.percent e))
  | valueError {ps key value rest k e} (hreach : Reaches body ps key value rest)
      (hkey : Percent.decode key = .ok k) (hk : k ≠ sourceKey)
      (hvalue : Percent.decode value = .error e) : Reads body (.error (.percent e))
  | sourceError {ps key value rest e} (hreach : Reaches body ps key value rest)
      (hkey : Percent.decode key = .ok sourceKey)
      (hrest : Percent.decode rest = .error e) : Reads body (.error (.percent e))
  | referenceError {ps key value rest decoded e}
      (hreach : Reaches body ps key value rest)
      (hkey : Percent.decode key = .ok sourceKey)
      (hrest : Percent.decode rest = .ok decoded)
      (htext : Markup.Reference.decode decoded = .error e) :
      Reads body (.error (.reference e))

theorem pair?_append {key : Text} (h : '=' ∉ key) (value : Text) :
    pair? (key ++ '=' :: value) = some (key, value) := by
  rw [pair?, if_pos (by simp), before_append h, after_append h]

theorem pair?_eq_some {segment key value : Text} (h : pair? segment = some (key, value)) :
    segment = key ++ '=' :: value ∧ '=' ∉ key := by
  unfold pair? at h
  split at h
  · next hcontains =>
      cases h
      exact ⟨(before_append_after (List.contains_iff_mem.1 hcontains)).symm,
        not_mem_before '=' segment⟩
  · cases h

/-! ### Reading segments -/

/-- What a pair comes to, where `rest` is what stands after its equals sign, and
`next` is what comes of the body behind the pair. -/
def readPair (key value rest : Text) (next : Except RequestError Request) :
    Except RequestError Request :=
  match decodePart key with
  | .error e => .error e
  | .ok k =>
      if k = sourceKey then (decodeSource rest).map fun source => ⟨[], some source⟩
      else
        match decodePart value with
        | .error e => .error e
        | .ok v => next.map (cons (k, v))

def ofSegments : List Text → Except RequestError Request
  | [] => .ok ⟨[], none⟩
  | segment :: behind =>
      match pair? segment with
      | none => ofSegments behind
      | some (key, value) =>
          readPair key value (value ++ behind.flatMap ('&' :: ·)) (ofSegments behind)

theorem ofSegments_cons_none {segment : Text} (h : pair? segment = none)
    (behind : List Text) : ofSegments (segment :: behind) = ofSegments behind := by
  rw [ofSegments, h]

theorem ofSegments_cons_some {segment key value : Text}
    (h : pair? segment = some (key, value)) (behind : List Text) :
    ofSegments (segment :: behind) =
      readPair key value (value ++ behind.flatMap ('&' :: ·)) (ofSegments behind) := by
  rw [ofSegments, h]

theorem parse_cons (c : Char) (cs : Text) :
    parse (c :: cs) =
      match pair? (before '&' (c :: cs)) with
      | none => parse (after '&' (c :: cs))
      | some (key, value) =>
          readPair key value (after '=' (c :: cs)) (parse (after '&' (c :: cs))) := by
  rw [parse]
  by_cases h : (before '&' (c :: cs)).contains '='
  · rw [pair?, if_pos h, if_pos h]
    rfl
  · rw [pair?, if_neg h, if_neg h]

/-- What stands after the first equals sign of a body is what stands after that of
its first segment with one, to the end. -/
theorem after_append_of_pair {segment key value : Text}
    (h : pair? segment = some (key, value)) (rest : Text) :
    after '=' (segment ++ rest) = value ++ rest := by
  obtain ⟨rfl, hkey⟩ := pair?_eq_some h
  rw [List.append_assoc, List.cons_append, after_append hkey]

/-- A body is read as its segments are. -/
theorem parse_eq_ofSegments (body : Text) :
    parse body = ofSegments (splitOn '&' body) := by
  cases body with
  | nil => rw [parse]; rfl
  | cons c cs =>
      obtain ⟨behind, hsplit, hbehind⟩ := exists_splitOn_eq '&' (c :: cs)
      have hlt : (after '&' (c :: cs)).length < (c :: cs).length :=
        Nat.lt_succ_of_le (length_after_le '&' c cs)
      have hnext : parse (after '&' (c :: cs)) = ofSegments behind := by
        rw [parse_eq_ofSegments (after '&' (c :: cs))]
        rcases hbehind with ⟨rfl, hafter⟩ | rfl
        · rw [hafter]
          rfl
        · rfl
      rw [parse_cons, hnext, hsplit]
      cases hpair : pair? (before '&' (c :: cs)) with
      | none => rw [ofSegments_cons_none hpair]
      | some pair =>
          obtain ⟨key, value⟩ := pair
          have hafter := after_append_of_pair hpair (behind.flatMap ('&' :: ·))
          rw [← eq_of_splitOn_eq_cons hsplit] at hafter
          rw [ofSegments_cons_some hpair, ← hafter]
  termination_by body.length
  decreasing_by exact hlt

theorem decodePart_of_ok {t decoded : Text} (h : Percent.decode t = .ok decoded) :
    decodePart t = .ok decoded := by
  rw [decodePart, h]
  rfl

theorem decodePart_of_error {t : Text} {e : PercentError}
    (h : Percent.decode t = .error e) : decodePart t = .error (.percent e) := by
  rw [decodePart, h]
  rfl

def prepend (ps : List (Text × Text)) (request : Request) : Request :=
  { request with params := ps ++ request.params }

theorem readPair_of_standsFor {written param : Text × Text} (h : StandsFor written param)
    (rest : Text) (next : Except RequestError Request) :
    readPair written.1 written.2 rest next = next.map (cons param) := by
  obtain ⟨hkey, hvalue, hne⟩ := h
  rw [readPair, decodePart_of_ok hkey]
  simp only [if_neg hne, decodePart_of_ok hvalue]

/-- Parameters are read one after the other. -/
theorem ofSegments_append {front : List Text} {ps : List (Text × Text)}
    (h : Writes front ps) (segments : List Text) :
    ofSegments (front ++ segments) = (ofSegments segments).map (prepend ps) := by
  induction front generalizing ps with
  | nil =>
      cases h
      cases hsegments : ofSegments segments <;> simp [hsegments, Except.map, prepend]
  | cons segment front ih =>
      unfold Writes at h
      cases hpair : pair? segment with
      | none =>
          rw [List.filterMap_cons_none hpair] at h
          rw [List.cons_append, ofSegments_cons_none hpair, ih h]
      | some pair =>
          obtain ⟨key, value⟩ := pair
          rw [List.filterMap_cons_some hpair] at h
          cases h with
          | cons hparam hps =>
              rw [List.cons_append, ofSegments_cons_some hpair,
                readPair_of_standsFor hparam, ih hps]
              cases ofSegments segments <;> rfl

/-- The pair that reading comes to decides the outcome, with the parameters in front
of it. -/
theorem exists_parse_eq_readPair {body key value rest : Text} {ps : List (Text × Text)}
    (h : Reaches body ps key value rest) :
    ∃ next, parse body = (readPair key value rest next).map (prepend ps) := by
  obtain ⟨front, behind, hsplit, hkey, hps, hbody⟩ := h
  have hrest : rest = value ++ behind.flatMap ('&' :: ·) := by
    have h := hbody.symm.trans (eq_of_splitOn_eq_append hsplit)
    simpa using h
  refine ⟨ofSegments behind, ?_⟩
  rw [parse_eq_ofSegments, hsplit, ofSegments_append hps,
    ofSegments_cons_some (pair?_append hkey value), hrest]

theorem readPair_source {key value rest : Text} (hkey : Percent.decode key = .ok sourceKey)
    (next : Except RequestError Request) :
    readPair key value rest next =
      (decodeSource rest).map fun source => ⟨[], some source⟩ := by
  rw [readPair, decodePart_of_ok hkey]
  exact if_pos rfl

theorem parse_eq_of_reads {body : Text} {result : Except RequestError Request}
    (h : Reads body result) : parse body = result := by
  cases h with
  | params hps =>
      have hread := ofSegments_append hps []
      rw [List.append_nil] at hread
      rw [parse_eq_ofSegments, hread]
      simp [ofSegments, Except.map, prepend]
  | source hreach hkey hrest htext =>
      obtain ⟨next, hparse⟩ := exists_parse_eq_readPair hreach
      rw [hparse, readPair_source hkey, decodeSource, decodePart_of_ok hrest]
      simp [Except.bind, Except.map, Except.mapError, htext, prepend]
  | keyError hreach hkey =>
      obtain ⟨next, hparse⟩ := exists_parse_eq_readPair hreach
      rw [hparse, readPair, decodePart_of_error hkey]
      rfl
  | valueError hreach hkey hk hvalue =>
      obtain ⟨next, hparse⟩ := exists_parse_eq_readPair hreach
      rw [hparse, readPair, decodePart_of_ok hkey]
      simp only [if_neg hk, decodePart_of_error hvalue]
      rfl
  | sourceError hreach hkey hrest =>
      obtain ⟨next, hparse⟩ := exists_parse_eq_readPair hreach
      rw [hparse, readPair_source hkey, decodeSource, decodePart_of_error hrest]
      rfl
  | referenceError hreach hkey hrest htext =>
      obtain ⟨next, hparse⟩ := exists_parse_eq_readPair hreach
      rw [hparse, readPair_source hkey, decodeSource, decodePart_of_ok hrest]
      simp [Except.bind, Except.map, Except.mapError, htext]

theorem writes_append {front segments : List Text} {ps qs : List (Text × Text)}
    (hps : Writes front ps) (hqs : Writes segments qs) :
    Writes (front ++ segments) (ps ++ qs) := by
  rw [Writes, List.filterMap_append]
  exact List.rel_append hps hqs

/-- Every body comes to something. The induction is over the segments that are still
to be read, after those that write the parameters so far. -/
theorem exists_reads_of_splitOn {body : Text} {front segments : List Text}
    {ps : List (Text × Text)} (hsplit : splitOn '&' body = front ++ segments)
    (hps : Writes front ps) : ∃ result, Reads body result := by
  induction segments generalizing front ps with
  | nil =>
      rw [List.append_nil] at hsplit
      exact ⟨_, .params (hsplit ▸ hps)⟩
  | cons segment behind ih =>
      have hnext : splitOn '&' body = (front ++ [segment]) ++ behind := by simp [hsplit]
      cases hpair : pair? segment with
      | none =>
          have hsegment : Writes [segment] [] := by simp [Writes, hpair]
          exact ih hnext (writes_append hps hsegment)
      | some pair =>
          obtain ⟨key, value⟩ := pair
          obtain ⟨rfl, hmem⟩ := pair?_eq_some hpair
          have hreach : Reaches body ps key value (value ++ behind.flatMap ('&' :: ·)) := by
            refine ⟨front, behind, hsplit, hmem, hps, ?_⟩
            simpa using eq_of_splitOn_eq_append hsplit
          cases hkey : Percent.decode key with
          | error e => exact ⟨_, .keyError hreach hkey⟩
          | ok k =>
              by_cases hk : k = sourceKey
              · subst hk
                cases hrest : Percent.decode (value ++ behind.flatMap ('&' :: ·)) with
                | error e => exact ⟨_, .sourceError hreach hkey hrest⟩
                | ok decoded =>
                    cases htext : Markup.Reference.decode decoded with
                    | error e => exact ⟨_, .referenceError hreach hkey hrest htext⟩
                    | ok text => exact ⟨_, .source hreach hkey hrest htext⟩
              · cases hvalue : Percent.decode value with
                | error e => exact ⟨_, .valueError hreach hkey hk hvalue⟩
                | ok v =>
                    have hparam : StandsFor (key, value) (k, v) := ⟨hkey, hvalue, hk⟩
                    have hsegment : Writes [key ++ '=' :: value] [(k, v)] := by
                      simpa [Writes, hpair] using hparam
                    exact ih hnext (writes_append hps hsegment)

/-- The value of a key is that of the last pair with it. -/
theorem param?_eq_some_iff (request : Request) (key value : Text) :
    request.param? key = some value ↔
      ∃ earlier later, request.params = earlier ++ (key, value) :: later ∧
        ∀ param ∈ later, param.1 ≠ key := by
  rw [param?, List.lookup_eq_some_iff]
  constructor
  · rintro ⟨later, earlier, hparams, hlater⟩
    refine ⟨earlier.reverse, later.reverse, ?_, ?_⟩
    · simpa using List.reverse_eq_iff.1 hparams
    · intro param hparam
      have hne := hlater param (List.mem_reverse.1 hparam)
      exact (bne_iff_ne.1 hne).symm
  · rintro ⟨earlier, later, hparams, hlater⟩
    refine ⟨later.reverse, earlier.reverse, by simp [hparams], ?_⟩
    intro param hparam
    exact bne_iff_ne.2 (hlater param (List.mem_reverse.1 hparam)).symm

/-- What parsing makes of a body is what its segments say, be it a request or an
error, and the last parameter with a key is the one that counts. -/
theorem parse_eq_iff_reads :
    (∀ body result, parse body = result ↔ Reads body result) ∧
      ∀ (request : Request) (key value : Text),
        request.param? key = some value ↔
          ∃ earlier later, request.params = earlier ++ (key, value) :: later ∧
            ∀ param ∈ later, param.1 ≠ key := by
  refine ⟨fun body result => ⟨fun hparse => ?_, parse_eq_of_reads⟩, param?_eq_some_iff⟩
  have hnil : Writes [] [] := List.Forall₂.nil
  obtain ⟨result', hreads⟩ := exists_reads_of_splitOn (List.nil_append _).symm hnil
  rwa [← hparse, parse_eq_of_reads hreads]

end Request

end Form

end SourceMarkup
