import SourceMarkup.Settings.Basic

/-!
# Settings from parameters

Parameters set the settings one after the other. A pair gives a value to at most one
setting, and only where the value can be read, so each setting ends up with the value of
the last pair that gives it one. It follows what may be done to a row of pairs without a
change of the settings: the pairs that give nothing may be left out, and only the order of
pairs with the same key counts.

`set` is one call as it answers, and `calls` is a row of calls, each with the settings that
it finds and the settings that it leaves.
-/

namespace SourceMarkup

namespace Settings

section Given

variable {α : Type} [Choice α]

/-- The value that a pair gives to a setting, if the pair is for the setting and its value
can be read. -/
def given? (α : Type) [Choice α] (pair : Text × Text) : Option α :=
  if pair.1 = Choice.param α then Choice.parse? pair.2 else none

/-- The last value that a row of pairs gives to a setting, or the old one. -/
def lastGiven (params : List (Text × Text)) (old : α) : α :=
  (params.filterMap (given? α)).getLast?.getD old

theorem given?_param (value : Text) :
    given? α (Choice.param α, value) = Choice.parse? value :=
  if_pos rfl

theorem given?_eq_none_iff {pair : Text × Text} :
    given? α pair = none ↔
      (pair.1 = Choice.param α → (Choice.parse? pair.2 : Option α) = none) := by
  rw [given?]
  split
  · next hkey => exact ⟨fun h _ => h, fun h => h hkey⟩
  · next hkey => exact ⟨fun _ h => absurd h hkey, fun _ => rfl⟩

theorem lastGiven_cons (pair : Text × Text) (params : List (Text × Text)) (old : α) :
    lastGiven (pair :: params) old = lastGiven params ((given? α pair).getD old) := by
  unfold lastGiven
  cases hpair : given? α pair with
  | none => rw [List.filterMap_cons_none hpair, Option.getD_none]
  | some a => rw [List.filterMap_cons_some hpair, List.getLast?_cons]; rfl

/-- A setting after a row of pairs: the value of the last pair that is for the setting and
can be read, and the old one where there is no such pair. -/
inductive LastValid (params : List (Text × Text)) (old : α) : α → Prop
  | given {before after : List (Text × Text)} {value : Text} {a : α}
      (split : params = before ++ (Choice.param α, value) :: after)
      (reads : Choice.parse? value = some a)
      (last : ∀ later, (Choice.param α, later) ∈ after →
        (Choice.parse? later : Option α) = none) :
      LastValid params old a
  | kept (unread : ∀ value, (Choice.param α, value) ∈ params →
      (Choice.parse? value : Option α) = none) : LastValid params old old

theorem forall_given?_eq_none_iff {params : List (Text × Text)} :
    (∀ pair ∈ params, given? α pair = none) ↔
      ∀ value, (Choice.param α, value) ∈ params →
        (Choice.parse? value : Option α) = none := by
  constructor
  · intro h value hmem
    rw [← given?_param]
    exact h _ hmem
  · rintro h ⟨key, value⟩ hmem
    refine given?_eq_none_iff.2 fun hkey => h value ?_
    rwa [← show key = Choice.param α from hkey]

theorem lastValid_iff {params : List (Text × Text)} {old a : α} :
    LastValid params old a ↔ lastGiven params old = a := by
  unfold lastGiven
  constructor
  · rintro (⟨rfl, hreads, hlast⟩ | hunread)
    · have hafter := List.filterMap_eq_nil_iff.2 (forall_given?_eq_none_iff.2 hlast)
      rw [List.filterMap_append, List.filterMap_cons_some ((given?_param _).trans hreads),
        hafter, List.getLast?_concat, Option.getD_some]
    · rw [List.filterMap_eq_nil_iff.2 (forall_given?_eq_none_iff.2 hunread)]
      rfl
  · intro h
    -- the last value given is the first one that a search from the right meets
    rw [List.getLast?_filterMap] at h
    cases hlast : params.reverse.findSome? (given? α) with
    | none =>
        rw [hlast] at h
        obtain rfl : old = a := h
        refine .kept (forall_given?_eq_none_iff.1 fun pair hpair => ?_)
        exact List.findSome?_eq_none_iff.1 hlast pair (List.mem_reverse.2 hpair)
    | some b =>
        rw [hlast] at h
        obtain rfl : b = a := h
        obtain ⟨after, ⟨key, value⟩, before, hsplit, hgiven, hafter⟩ :=
          List.findSome?_eq_some_iff.1 hlast
        obtain ⟨hkey, hreads⟩ : key = Choice.param α ∧ Choice.parse? value = some b := by
          simpa [given?] using hgiven
        have hparams : params = before.reverse ++ (Choice.param α, value) :: after.reverse := by
          rw [← List.reverse_reverse params, hsplit, hkey]
          simp
        refine .given hparams hreads (forall_given?_eq_none_iff.1 fun pair hpair => ?_)
        exact hafter pair (List.mem_reverse.1 hpair)

end Given

/-! ### All settings -/

variable {params others : List (Text × Text)}

theorem params_ne :
    Choice.param Profile ≠ Choice.param Language ∧
      Choice.param Profile ≠ Choice.param MarkupType ∧
      Choice.param Language ≠ Choice.param MarkupType := by
  decide

/-- What a pair does to each of the settings. -/
theorem apply_eq (settings : Settings) (pair : Text × Text) :
    settings.apply pair =
      ⟨(given? Profile pair).getD settings.profile,
        (given? Language pair).getD settings.language,
        (given? MarkupType pair).getD settings.markup⟩ := by
  obtain ⟨hlanguage, hmarkup, hlanguageMarkup⟩ := params_ne
  obtain ⟨key, value⟩ := pair
  by_cases hprofile : key = Choice.param Profile
  · subst hprofile
    simp only [apply, set?, given?, if_true, if_neg hlanguage, if_neg hmarkup]
    cases (Choice.parse? value : Option Profile) <;> rfl
  by_cases hlanguage : key = Choice.param Language
  · subst hlanguage
    simp only [apply, set?, given?, if_true, if_neg hprofile, if_neg hlanguageMarkup]
    cases (Choice.parse? value : Option Language) <;> rfl
  by_cases hmarkup : key = Choice.param MarkupType
  · subst hmarkup
    simp only [apply, set?, given?, if_true, if_neg hprofile, if_neg hlanguage]
    cases (Choice.parse? value : Option MarkupType) <;> rfl
  · simp only [apply, set?, given?, if_neg hprofile, if_neg hlanguage, if_neg hmarkup]
    rfl

theorem foldl_apply_eq (params : List (Text × Text)) (settings : Settings) :
    params.foldl apply settings =
      ⟨lastGiven params settings.profile, lastGiven params settings.language,
        lastGiven params settings.markup⟩ := by
  induction params generalizing settings with
  | nil => rfl
  | cons pair params ih =>
      rw [List.foldl_cons, ih, apply_eq, lastGiven_cons, lastGiven_cons, lastGiven_cons]

/-- Of a row of pairs nothing counts but the values that it gives to each setting, in their
order. -/
theorem foldl_apply_congr
    (hprofile : params.filterMap (given? Profile) = others.filterMap (given? Profile))
    (hlanguage : params.filterMap (given? Language) = others.filterMap (given? Language))
    (hmarkup : params.filterMap (given? MarkupType) = others.filterMap (given? MarkupType))
    (settings : Settings) : params.foldl apply settings = others.foldl apply settings := by
  simp only [foldl_apply_eq, lastGiven, hprofile, hlanguage, hmarkup]

/-- A pair with an unknown key, or with a value that its setting cannot read. -/
def IsIgnored (pair : Text × Text) : Prop :=
  (pair.1 = Choice.param Profile → (Choice.parse? pair.2 : Option Profile) = none) ∧
    (pair.1 = Choice.param Language → (Choice.parse? pair.2 : Option Language) = none) ∧
    (pair.1 = Choice.param MarkupType → (Choice.parse? pair.2 : Option MarkupType) = none)

instance : DecidablePred IsIgnored := fun _ => inferInstanceAs (Decidable (_ ∧ _ ∧ _))

theorem isIgnored_iff {pair : Text × Text} :
    IsIgnored pair ↔
      given? Profile pair = none ∧ given? Language pair = none ∧
        given? MarkupType pair = none := by
  rw [given?_eq_none_iff, given?_eq_none_iff, given?_eq_none_iff, IsIgnored]

theorem filterMap_eq_of_filter {α : Type} {f : Text × Text → Option α}
    {p : Text × Text → Bool} (hnone : ∀ pair, p pair = false → f pair = none)
    (h : params.filter p = others.filter p) : params.filterMap f = others.filterMap f := by
  have hfilter : ∀ row : List (Text × Text), (row.filter p).filterMap f = row.filterMap f := by
    intro row
    rw [List.filterMap_filter]
    refine congrArg (List.filterMap · row) (funext fun pair => ?_)
    cases hp : p pair with
    | true => rfl
    | false => exact (hnone pair hp).symm
  rw [← hfilter, h, hfilter]

/-- Ignored pairs may be put in and left out anywhere. -/
theorem foldl_apply_of_filter_ignored
    (h : params.filter (fun pair => ¬ IsIgnored pair) =
      others.filter (fun pair => ¬ IsIgnored pair)) (settings : Settings) :
    params.foldl apply settings = others.foldl apply settings := by
  have hnone : ∀ pair : Text × Text, decide (¬ IsIgnored pair) = false →
      given? Profile pair = none ∧ given? Language pair = none ∧
        given? MarkupType pair = none := by
    intro pair hpair
    exact isIgnored_iff.1 (Decidable.not_not.1 (of_decide_eq_false hpair))
  refine foldl_apply_congr ?_ ?_ ?_ settings
  · exact filterMap_eq_of_filter (fun pair hpair => (hnone pair hpair).1) h
  · exact filterMap_eq_of_filter (fun pair hpair => (hnone pair hpair).2.1) h
  · exact filterMap_eq_of_filter (fun pair hpair => (hnone pair hpair).2.2) h

/-- Pairs with different keys may change places. -/
theorem foldl_apply_of_filter_key
    (h : ∀ key, params.filter (fun pair => pair.1 = key) =
      others.filter (fun pair => pair.1 = key)) (settings : Settings) :
    params.foldl apply settings = others.foldl apply settings := by
  have hgiven : ∀ (α : Type) [Choice α],
      params.filterMap (given? α) = others.filterMap (given? α) := by
    intro α _
    refine filterMap_eq_of_filter (fun pair hpair => ?_) (h (Choice.param α))
    exact if_neg (of_decide_eq_false hpair)
  exact foldl_apply_congr (hgiven _) (hgiven _) (hgiven _) settings

/-! ### Calls -/

/-- A choice after a spelling for it, with whether the spelling is taken. -/
def assign {α : Type} [Choice α] (choice : α) (value : Text) : Bool × α :=
  match Choice.parse? value with
  | some a => (true, a)
  | none => (false, choice)

/-- The settings after a pair, with whether the pair is taken. -/
def set (settings : Settings) (key value : Text) : Bool × Settings :=
  if key = Choice.param Profile then
    (assign settings.profile value).map id fun p => { settings with profile := p }
  else if key = Choice.param Language then
    (assign settings.language value).map id fun l => { settings with language := l }
  else if key = Choice.param MarkupType then
    (assign settings.markup value).map id fun m => { settings with markup := m }
  else (false, settings)

theorem map_assign {α : Type} [Choice α] {choice : α} {put : α → Settings}
    {settings : Settings} (hput : put choice = settings) (value : Text) :
    (assign choice value).map id put =
      (((Choice.parse? value).map put).isSome, ((Choice.parse? value).map put).getD settings) := by
  rw [assign]
  cases (Choice.parse? value : Option α) with
  | none => exact congrArg (Prod.mk false) hput
  | some a => rfl

theorem set_eq (settings : Settings) (key value : Text) :
    settings.set key value =
      ((settings.set? key value).isSome, settings.apply (key, value)) := by
  simp only [set, apply, set?]
  split
  · exact map_assign rfl value
  split
  · exact map_assign rfl value
  split
  · exact map_assign rfl value
  · rfl

/-- What a call can do: a pair that is ignored is refused and changes nothing, and a pair
that is taken changes the setting that it names. -/
inductive Sets (settings : Settings) (key value : Text) : Bool × Settings → Prop
  | refused (ignored : IsIgnored (key, value)) : Sets settings key value (false, settings)
  | profile {p : Profile} (names : key = Choice.param Profile)
      (reads : Choice.parse? value = some p) :
      Sets settings key value (true, { settings with profile := p })
  | language {l : Language} (names : key = Choice.param Language)
      (reads : Choice.parse? value = some l) :
      Sets settings key value (true, { settings with language := l })
  | markup {m : MarkupType} (names : key = Choice.param MarkupType)
      (reads : Choice.parse? value = some m) :
      Sets settings key value (true, { settings with markup := m })

theorem sets_set (settings : Settings) (key value : Text) :
    Sets settings key value (settings.set key value) := by
  obtain ⟨hlanguage, hmarkup, hlanguageMarkup⟩ := params_ne
  unfold set
  split
  · next hkey =>
      rw [assign]
      cases hparse : (Choice.parse? value : Option Profile) with
      | some p => exact .profile hkey hparse
      | none =>
          exact .refused ⟨fun _ => hparse, fun h => absurd (hkey.symm.trans h) hlanguage,
            fun h => absurd (hkey.symm.trans h) hmarkup⟩
  split
  · next hprofile hkey =>
      rw [assign]
      cases hparse : (Choice.parse? value : Option Language) with
      | some l => exact .language hkey hparse
      | none =>
          exact .refused ⟨fun h => absurd h hprofile, fun _ => hparse,
            fun h => absurd (hkey.symm.trans h) hlanguageMarkup⟩
  split
  · next hprofile hlanguage hkey =>
      rw [assign]
      cases hparse : (Choice.parse? value : Option MarkupType) with
      | some m => exact .markup hkey hparse
      | none =>
          exact .refused ⟨fun h => absurd h hprofile, fun h => absurd h hlanguage,
            fun _ => hparse⟩
  · next hprofile hlanguage hmarkup =>
      exact .refused ⟨fun h => absurd h hprofile, fun h => absurd h hlanguage,
        fun h => absurd h hmarkup⟩

/-- A call with a pair, between the settings that it finds and the settings that it
leaves. -/
structure Call where
  found : Settings
  key : Text
  value : Text
  taken : Bool
  left : Settings

def calls (settings : Settings) : List (Text × Text) → List Call
  | [] => []
  | (key, value) :: params =>
      let (taken, left) := settings.set key value
      ⟨settings, key, value, taken, left⟩ :: left.calls params

theorem sets_of_mem_calls {settings : Settings} {call : Call}
    (h : call ∈ settings.calls params) :
    Sets call.found call.key call.value (call.taken, call.left) := by
  induction params generalizing settings with
  | nil => exact absurd h List.not_mem_nil
  | cons pair params ih =>
      obtain ⟨key, value⟩ := pair
      rcases List.mem_cons.1 h with rfl | hrest
      · exact sets_set settings key value
      · exact ih hrest

/-- After its calls a row of pairs leaves the settings that it makes. -/
theorem left_calls (settings : Settings) (params : List (Text × Text)) :
    ((settings.calls params).map Call.left).getLast?.getD settings =
      params.foldl apply settings := by
  induction params generalizing settings with
  | nil => rfl
  | cons pair params ih =>
      obtain ⟨key, value⟩ := pair
      rw [List.foldl_cons, ← ih, calls, set_eq, List.map_cons, List.getLast?_cons]
      rfl

/-- The last valid pair for a setting wins, whatever comes after it. Pairs that give nothing
may come and go, pairs with different keys may change places, a row of pairs may be cut in
two, and a call that is refused changes nothing, while one that is taken changes no setting
but its own. -/
theorem ofRequest_last_valid :
    (∀ (request : Form.Request) (defaults : Settings),
      (∀ p, LastValid request.params defaults.profile p ↔
        (ofRequest request defaults).profile = p) ∧
      (∀ l, LastValid request.params defaults.language l ↔
        (ofRequest request defaults).language = l) ∧
      ∀ m, LastValid request.params defaults.markup m ↔
        (ofRequest request defaults).markup = m) ∧
    (∀ (request other : Form.Request) (defaults : Settings),
      (request.params.filter (fun pair => ¬ IsIgnored pair) =
          other.params.filter (fun pair => ¬ IsIgnored pair) ∨
        ∀ key, request.params.filter (fun pair => pair.1 = key) =
          other.params.filter (fun pair => pair.1 = key)) →
      ofRequest request defaults = ofRequest other defaults) ∧
    (∀ (request first second : Form.Request) (defaults : Settings),
      request.params = first.params ++ second.params →
      ofRequest request defaults = ofRequest second (ofRequest first defaults)) ∧
    (∀ (settings : Settings) (key value : Text), settings.set key value =
      ((settings.set? key value).isSome, settings.apply (key, value))) ∧
    ∀ (request : Form.Request) (defaults : Settings),
      ((defaults.calls request.params).map Call.left).getLast?.getD defaults =
          ofRequest request defaults ∧
        ∀ call ∈ defaults.calls request.params,
          Sets call.found call.key call.value (call.taken, call.left) := by
  refine ⟨fun request defaults => ?_, fun request other defaults h => ?_,
    fun request first second defaults h => ?_, set_eq, fun request defaults => ?_⟩
  · rw [ofRequest, foldl_apply_eq]
    exact ⟨fun _ => lastValid_iff, fun _ => lastValid_iff, fun _ => lastValid_iff⟩
  · rcases h with hignored | hkey
    · exact foldl_apply_of_filter_ignored hignored defaults
    · exact foldl_apply_of_filter_key hkey defaults
  · rw [ofRequest, h, List.foldl_append]
    rfl
  · exact ⟨left_calls defaults request.params, fun _ => sets_of_mem_calls⟩

/-- Neither a profile that cannot be read nor an unknown key undoes a profile. -/
theorem ofRequest_last_valid_unread :
    let params : List (Text × Text) :=
      [("profile".toList, "ECLIPSE".toList), ("theme".toList, "dark".toList),
        ("language".toList, " Xml ".toList), ("profile".toList, "vim".toList)]
    let valid : List (Text × Text) :=
      [("profile".toList, "ECLIPSE".toList), ("language".toList, " Xml ".toList)]
    params.filter (fun pair => ¬ IsIgnored pair) = valid.filter (fun pair => ¬ IsIgnored pair) ∧
      ofRequest ⟨params, none⟩ {} = ofRequest ⟨valid, none⟩ {} ∧
      (ofRequest ⟨params, none⟩ {}).profile = .eclipse := by
  intro params valid
  have hfilter : params.filter (fun pair => ¬ IsIgnored pair) =
      valid.filter (fun pair => ¬ IsIgnored pair) := by
    decide
  have hlast : LastValid params Profile.idea .eclipse := by
    refine .given (List.nil_append params).symm (by decide) ?_
    exact forall_given?_eq_none_iff.1 (by decide)
  refine ⟨hfilter, ?_, ?_⟩
  · exact ofRequest_last_valid.2.1 ⟨params, none⟩ ⟨valid, none⟩ {} (.inl hfilter)
  · exact ((ofRequest_last_valid.1 ⟨params, none⟩ {}).1 .eclipse).1 hlast

end Settings

end SourceMarkup
