import SourceMarkup.Clipboard.Basic

/-!
# Attempts to copy, tool by tool

The tools of an attempt are checked one after the other, in their order, up to the first
one that accepts the text. Of these, the available ones are given the text, each of them
once; no other tool is touched. The answer is that of the tool that accepts the text. If
there is none, the last tool that failed is the one to report, whether or not tools after
it could be found.

Over several attempts a tool may change between being available or not, and between
accepting a text or not. So a history tells for each attempt how the tools were. What a
tool was given over a history is put together from the attempts in which it was its turn.
-/

namespace SourceMarkup

namespace Clipboard

variable {tool : Tool} {tools : List Tool} {text : Text} {size position i : Nat}
  {last : Error}

/-- The place of an event in the order of the tools. A tool is checked before it is given
a text. -/
def Event.rank : Event → Nat
  | check position => 2 * position
  | give position _ => 2 * position + 1

def Tool.FailsWith (tool : Tool) (reason : Text) : Prop :=
  tool.available = true ∧ tool.outcome = .failed reason

/-- Whether it comes to the turn of the tool at a position: no tool before it accepts the
text. -/
def IsReached (tools : List Tool) (i : Nat) : Prop :=
  i < tools.length ∧ ∀ earlier ∈ tools.take i, earlier.accepts = false

/-- Whether the tool at a position is given the text: it comes to its turn, and it is
available. -/
def IsGiven (tools : List Tool) (i : Nat) : Prop :=
  IsReached tools i ∧ ∃ tool ∈ tools[i]?, tool.available = true

instance decidableIsReached (tools : List Tool) (i : Nat) : Decidable (IsReached tools i) :=
  inferInstanceAs (Decidable (_ ∧ _))

instance decidableIsGiven (tools : List Tool) (i : Nat) : Decidable (IsGiven tools i) :=
  inferInstanceAs (Decidable (_ ∧ _))

structure FallsBack (tools : List Tool) (text : Text) (attempt : Attempt) : Prop where
  in_order : attempt.events.Pairwise fun event later => event.rank < later.rank
  check_iff : ∀ i, .check i ∈ attempt.events ↔ IsReached tools i
  give_iff : ∀ i t, .give i t ∈ attempt.events ↔ t = text ∧ IsGiven tools i
  ok_iff : ∀ copied, attempt.answer = .ok copied ↔
    ∃ before tool after, tools = before ++ tool :: after ∧
      (∀ earlier ∈ before, earlier.accepts = false) ∧ tool.accepts = true ∧
      copied = ⟨tool.method, text.byteLength⟩
  toolFailed_iff : ∀ method reason, attempt.answer = .error (.toolFailed method reason) ↔
    (∀ tool ∈ tools, tool.accepts = false) ∧
      ∃ before tool after, tools = before ++ tool :: after ∧ tool.method = method ∧
        tool.FailsWith reason ∧ ∀ later ∈ after, ∀ r, ¬ later.FailsWith r
  noToolAvailable_iff : attempt.answer = .error .noToolAvailable ↔
    (∀ tool ∈ tools, tool.accepts = false) ∧ ∀ tool ∈ tools, ∀ r, ¬ tool.FailsWith r

/-! ### What is done with the tools -/

theorem isReached_zero : IsReached (tool :: tools) 0 := by
  simp [IsReached]

theorem isReached_succ :
    IsReached (tool :: tools) (i + 1) ↔ tool.accepts = false ∧ IsReached tools i := by
  rw [IsReached, IsReached, List.length_cons, Nat.succ_lt_succ_iff, List.take_succ_cons,
    List.forall_mem_cons, and_left_comm]

theorem isGiven_zero : IsGiven (tool :: tools) 0 ↔ tool.available = true := by
  simp [IsGiven, isReached_zero]

theorem isGiven_succ :
    IsGiven (tool :: tools) (i + 1) ↔ tool.accepts = false ∧ IsGiven tools i := by
  rw [IsGiven, IsGiven, isReached_succ, List.getElem?_cons_succ, and_assoc]

theorem attemptFrom_of_accepts (h : tool.accepts = true) :
    attemptFrom text position last (tool :: tools) =
      ⟨.ok ⟨tool.method, text.byteLength⟩, tool.events position text⟩ := by
  rw [attemptFrom, if_pos h]

theorem attemptFrom_of_refuses (h : tool.accepts = false) :
    attemptFrom text position last (tool :: tools) =
      (attemptFrom text (position + 1) (tool.errorAfter last) tools).after
        (tool.events position text) := by
  rw [attemptFrom, if_neg (Bool.eq_false_iff.1 h)]

theorem answer_attemptFrom (text : Text) (position : Nat) (last : Error)
    (tools : List Tool) :
    (attemptFrom text position last tools).answer =
      answerFrom text.byteLength last tools := by
  induction tools generalizing position last with
  | nil => rfl
  | cons tool tools ih =>
      rw [answerFrom]
      cases h : tool.accepts with
      | true => rw [attemptFrom_of_accepts h, if_pos rfl]
      | false =>
          rw [attemptFrom_of_refuses h, if_neg Bool.false_ne_true]
          exact ih (position + 1) (tool.errorAfter last)

/-- The events of an attempt are those of the tools that are reached. -/
theorem mem_events_attemptFrom {event : Event} :
    event ∈ (attemptFrom text position last tools).events ↔
      ∃ i tool, IsReached tools i ∧ tools[i]? = some tool ∧
        event ∈ tool.events (position + i) text := by
  induction tools generalizing position last with
  | nil => simp [attemptFrom]
  | cons tool tools ih =>
      cases h : tool.accepts with
      | true =>
          rw [attemptFrom_of_accepts h]
          constructor
          · exact fun hevent => ⟨0, tool, isReached_zero, rfl, hevent⟩
          · rintro ⟨i, other, hreached, hother, hevent⟩
            cases i with
            | zero =>
                obtain rfl := Option.some.inj hother
                exact hevent
            | succ i =>
                rw [isReached_succ, h] at hreached
                exact absurd hreached.1.symm Bool.false_ne_true
      | false =>
          rw [attemptFrom_of_refuses h, Attempt.after, List.mem_append, ih]
          constructor
          · rintro (hevent | ⟨i, other, hreached, hother, hevent⟩)
            · exact ⟨0, tool, isReached_zero, rfl, hevent⟩
            · refine ⟨i + 1, other, isReached_succ.2 ⟨h, hreached⟩, hother, ?_⟩
              rwa [Nat.add_assoc, Nat.add_comm 1] at hevent
          · rintro ⟨i, other, hreached, hother, hevent⟩
            cases i with
            | zero =>
                obtain rfl := Option.some.inj hother
                exact .inl hevent
            | succ i =>
                refine .inr ⟨i, other, (isReached_succ.1 hreached).2, hother, ?_⟩
                rwa [Nat.add_assoc, Nat.add_comm 1]

theorem check_mem_events {p : Nat} : .check p ∈ tool.events position text ↔ p = position := by
  rw [Tool.events]
  cases tool.available <;> simp

theorem give_mem_events {p : Nat} {t : Text} :
    .give p t ∈ tool.events position text ↔
      p = position ∧ t = text ∧ tool.available = true := by
  rw [Tool.events]
  cases tool.available <;> simp

theorem rank_of_mem_events {event : Event} (h : event ∈ tool.events position text) :
    2 * position ≤ event.rank ∧ event.rank < 2 * (position + 1) := by
  cases event with
  | check p =>
      rw [check_mem_events] at h
      simp only [Event.rank]
      omega
  | give p t =>
      rw [give_mem_events] at h
      simp only [Event.rank]
      omega

theorem pairwise_events_attemptFrom (text : Text) (position : Nat) (last : Error)
    (tools : List Tool) :
    (attemptFrom text position last tools).events.Pairwise
      fun event later => event.rank < later.rank := by
  have hevents : ∀ (tool : Tool) (position : Nat),
      (tool.events position text).Pairwise fun event later => event.rank < later.rank := by
    intro tool position
    rw [Tool.events]
    cases tool.available <;> simp [Event.rank]
  induction tools generalizing position last with
  | nil => exact List.Pairwise.nil
  | cons tool tools ih =>
      cases h : tool.accepts with
      | true =>
          rw [attemptFrom_of_accepts h]
          exact hevents tool position
      | false =>
          rw [attemptFrom_of_refuses h]
          refine List.pairwise_append.2 ⟨hevents tool position, ih _ _, ?_⟩
          intro event hevent later hlater
          obtain ⟨i, other, -, -, hlater⟩ := mem_events_attemptFrom.1 hlater
          have hrank := (rank_of_mem_events hevent).2
          have hnext := (rank_of_mem_events hlater).1
          omega

/-! ### The answer -/

def Tool.failure? (tool : Tool) : Option Error :=
  match tool.available, tool.outcome with
  | true, .failed reason => some (.toolFailed tool.method reason)
  | _, _ => none

theorem Tool.errorAfter_eq (tool : Tool) (last : Error) :
    tool.errorAfter last = tool.failure?.getD last := by
  obtain ⟨method, available, outcome⟩ := tool
  cases available <;> cases outcome <;> rfl

theorem Tool.failure?_eq_some_iff {e : Error} :
    tool.failure? = some e ↔
      ∃ reason, tool.FailsWith reason ∧ e = .toolFailed tool.method reason := by
  obtain ⟨method, available, outcome⟩ := tool
  cases available <;> cases outcome <;>
    simp [Tool.failure?, Tool.FailsWith, eq_comm]

/-- The first tool that accepts the text answers, and if there is none, the last failure. -/
theorem answerFrom_eq (size : Nat) (last : Error) (tools : List Tool) :
    answerFrom size last tools =
      match tools.find? Tool.accepts with
      | some tool => .ok ⟨tool.method, size⟩
      | none => .error ((tools.filterMap Tool.failure?).getLast?.getD last) := by
  induction tools generalizing last with
  | nil => rfl
  | cons tool tools ih =>
      rw [answerFrom, List.find?_cons]
      cases h : tool.accepts with
      | true => rfl
      | false =>
          rw [if_neg Bool.false_ne_true, ih, tool.errorAfter_eq, List.filterMap_cons]
          cases tool.failure? with
          | none => rfl
          | some e =>
              simp only [Option.getD_some, List.getLast?_cons]

theorem Tool.failure?_eq_none_iff : tool.failure? = none ↔ ∀ r, ¬ tool.FailsWith r := by
  rw [Option.eq_none_iff_forall_ne_some]
  simp only [ne_eq, Tool.failure?_eq_some_iff, not_exists, not_and]
  exact ⟨fun h r hr => h _ r hr rfl, fun h _ r hr => absurd hr (h r)⟩

theorem find?_accepts_eq_some_iff :
    tools.find? Tool.accepts = some tool ↔
      ∃ before after, tools = before ++ tool :: after ∧
        (∀ earlier ∈ before, earlier.accepts = false) ∧ tool.accepts = true := by
  simp only [List.find?_eq_some_iff_append, Bool.not_eq_true']
  constructor
  · rintro ⟨haccepts, before, after, htools, hbefore⟩
    exact ⟨before, after, htools, hbefore, haccepts⟩
  · rintro ⟨before, after, htools, hbefore, haccepts⟩
    exact ⟨haccepts, before, after, htools, hbefore⟩

theorem find?_accepts_eq_none_iff :
    tools.find? Tool.accepts = none ↔ ∀ tool ∈ tools, tool.accepts = false := by
  simp only [List.find?_eq_none, Bool.not_eq_true]

/-- The last failure is that of a tool after which no tool fails. -/
theorem getLast?_failures_eq_some_iff {e : Error} :
    (tools.filterMap Tool.failure?).getLast? = some e ↔
      ∃ before tool after, tools = before ++ tool :: after ∧
        (∃ reason, tool.FailsWith reason ∧ e = .toolFailed tool.method reason) ∧
        ∀ later ∈ after, ∀ r, ¬ later.FailsWith r := by
  rw [List.getLast?_eq_some_iff]
  constructor
  · rintro ⟨front, hfailures⟩
    obtain ⟨before, rest, rfl, -, hrest⟩ := List.filterMap_eq_append_iff.1 hfailures
    obtain ⟨skipped, tool, after, rfl, -, htool, hafter⟩ := List.filterMap_eq_cons_iff.1 hrest
    refine ⟨before ++ skipped, tool, after, (List.append_assoc _ _ _).symm,
      Tool.failure?_eq_some_iff.1 htool, fun later hlater => ?_⟩
    exact Tool.failure?_eq_none_iff.1 (List.filterMap_eq_nil_iff.1 hafter later hlater)
  · rintro ⟨before, tool, after, rfl, htool, hafter⟩
    have hnone : after.filterMap Tool.failure? = [] :=
      List.filterMap_eq_nil_iff.2 fun later hlater =>
        Tool.failure?_eq_none_iff.2 (hafter later hlater)
    refine ⟨before.filterMap Tool.failure?, ?_⟩
    rw [List.filterMap_append,
      List.filterMap_cons_some (Tool.failure?_eq_some_iff.2 htool), hnone]

theorem answerFrom_eq_ok_iff {copied : Copied} :
    answerFrom size last tools = .ok copied ↔
      ∃ before tool after, tools = before ++ tool :: after ∧
        (∀ earlier ∈ before, earlier.accepts = false) ∧ tool.accepts = true ∧
        copied = ⟨tool.method, size⟩ := by
  rw [answerFrom_eq]
  constructor
  · intro h
    cases hfind : tools.find? Tool.accepts with
    | none =>
        rw [hfind] at h
        contradiction
    | some tool =>
        rw [hfind] at h
        obtain ⟨before, after, htools, hbefore, haccepts⟩ := find?_accepts_eq_some_iff.1 hfind
        exact ⟨before, tool, after, htools, hbefore, haccepts, (Except.ok.inj h).symm⟩
  · rintro ⟨before, tool, after, htools, hbefore, haccepts, rfl⟩
    rw [find?_accepts_eq_some_iff.2 ⟨before, after, htools, hbefore, haccepts⟩]

theorem answerFrom_eq_error_iff {e : Error} :
    answerFrom size last tools = .error e ↔
      (∀ tool ∈ tools, tool.accepts = false) ∧
        (tools.filterMap Tool.failure?).getLast?.getD last = e := by
  rw [answerFrom_eq, ← find?_accepts_eq_none_iff]
  cases tools.find? Tool.accepts <;> simp

theorem answerFrom_eq_toolFailed_iff {method : Method} {reason : Text} :
    answerFrom size .noToolAvailable tools = .error (.toolFailed method reason) ↔
      (∀ tool ∈ tools, tool.accepts = false) ∧
        ∃ before tool after, tools = before ++ tool :: after ∧ tool.method = method ∧
          tool.FailsWith reason ∧ ∀ later ∈ after, ∀ r, ¬ later.FailsWith r := by
  have hgetD : ∀ failure : Option Error,
      failure.getD .noToolAvailable = .toolFailed method reason ↔
        failure = some (.toolFailed method reason) := by
    intro failure
    cases failure <;> simp
  rw [answerFrom_eq_error_iff, hgetD, getLast?_failures_eq_some_iff]
  refine and_congr_right fun _ => ?_
  constructor
  · rintro ⟨before, tool, after, htools, ⟨r, hfails, heq⟩, hafter⟩
    obtain ⟨rfl, rfl⟩ := Error.toolFailed.inj heq
    exact ⟨before, tool, after, htools, rfl, hfails, hafter⟩
  · rintro ⟨before, tool, after, htools, rfl, hfails, hafter⟩
    exact ⟨before, tool, after, htools, ⟨reason, hfails, rfl⟩, hafter⟩

theorem answerFrom_eq_noToolAvailable_iff :
    answerFrom size .noToolAvailable tools = .error .noToolAvailable ↔
      (∀ tool ∈ tools, tool.accepts = false) ∧ ∀ tool ∈ tools, ∀ r, ¬ tool.FailsWith r := by
  rw [answerFrom_eq_error_iff]
  refine and_congr_right fun _ => ?_
  simp only [← Tool.failure?_eq_none_iff, ← List.filterMap_eq_nil_iff,
    ← List.getLast?_eq_none_iff]
  cases hlast : (tools.filterMap Tool.failure?).getLast? with
  | none => simp
  | some e =>
      obtain ⟨_, _, _, _, ⟨_, _, rfl⟩, _⟩ := getLast?_failures_eq_some_iff.1 hlast
      simp

/-! ### Attempts -/

theorem check_mem_attempt_iff : .check i ∈ (attempt tools text).events ↔ IsReached tools i := by
  rw [attempt, mem_events_attemptFrom]
  simp only [Nat.zero_add, check_mem_events]
  constructor
  · rintro ⟨i, tool, hreached, -, rfl⟩
    exact hreached
  · intro hreached
    exact ⟨i, _, hreached, List.getElem?_eq_getElem hreached.1, rfl⟩

theorem give_mem_attempt_iff {t : Text} :
    .give i t ∈ (attempt tools text).events ↔ t = text ∧ IsGiven tools i := by
  rw [attempt, mem_events_attemptFrom]
  simp only [Nat.zero_add, give_mem_events]
  constructor
  · rintro ⟨i, tool, hreached, htool, rfl, rfl, havailable⟩
    exact ⟨rfl, hreached, tool, htool, havailable⟩
  · rintro ⟨rfl, hreached, tool, htool, havailable⟩
    exact ⟨i, tool, hreached, htool, rfl, rfl, havailable⟩

theorem answer_attempt (tools : List Tool) (text : Text) :
    (attempt tools text).answer = copy tools text :=
  answer_attemptFrom text 0 .noToolAvailable tools

/-- An attempt tries the tools in their order. -/
theorem fallsBack_attempt (tools : List Tool) (text : Text) :
    FallsBack tools text (attempt tools text) where
  in_order := pairwise_events_attemptFrom text 0 .noToolAvailable tools
  check_iff _ := check_mem_attempt_iff
  give_iff _ _ := give_mem_attempt_iff
  ok_iff _ := by rw [answer_attempt, copy, answerFrom_eq_ok_iff]
  toolFailed_iff _ _ := by rw [answer_attempt, copy, answerFrom_eq_toolFailed_iff]
  noToolAvailable_iff := by rw [answer_attempt, copy, answerFrom_eq_noToolAvailable_iff]

theorem getElem?_asked (tools : List Tool) (i : Nat) :
    (asked tools)[i]? = some true ↔ IsGiven tools i := by
  induction tools generalizing i with
  | nil => simp [asked, IsGiven, IsReached]
  | cons tool tools ih =>
      rw [asked]
      cases h : tool.accepts with
      | true =>
          cases i with
          | zero =>
              have havailable : tool.available = true := (Bool.and_eq_true_iff.1 h).1
              simp [isGiven_zero, havailable]
          | succ i =>
              have hrest : ¬ (tools.map fun _ => false)[i]? = some true := by
                rw [List.getElem?_map]
                cases tools[i]? <;> simp
              rw [if_pos rfl, List.getElem?_cons_succ, isGiven_succ, h]
              exact iff_of_false hrest fun hgiven => absurd hgiven.1.symm Bool.false_ne_true
      | false =>
          cases i with
          | zero => simp [isGiven_zero]
          | succ i => simp [isGiven_succ, h, ih]

/-! ### Histories -/

/-- What is done with tools over a history of attempts, each of them with the tools as they
are then. -/
def eventsOf (history : List (List Tool × Text)) : List Event :=
  history.flatMap fun past => (attempt past.1 past.2).events

@[simp] theorem given_nil (i : Nat) : given i [] = [] := rfl

@[simp] theorem given_check (i p : Nat) (events : List Event) :
    given i (.check p :: events) = given i events := rfl

@[simp] theorem given_give (i p : Nat) (t : Text) (events : List Event) :
    given i (.give p t :: events) = (if p = i then [t] else []) ++ given i events := by
  by_cases h : p = i <;> simp [given, Event.textFor?, h]

theorem given_append (i : Nat) (events more : List Event) :
    given i (events ++ more) = given i events ++ given i more :=
  List.filterMap_append

theorem given_eq_nil {events : List Event} (h : ∀ t, .give i t ∉ events) :
    given i events = [] := by
  refine List.filterMap_eq_nil_iff.2 fun event hevent => ?_
  cases event with
  | check p => rfl
  | give p t =>
      refine if_neg ?_
      rintro rfl
      exact h t hevent

theorem given_events (p : Nat) (tool : Tool) (position : Nat) (text : Text) :
    given p (tool.events position text) =
      if position = p ∧ tool.available = true then [text] else [] := by
  rw [Tool.events]
  cases tool.available <;> simp

/-- An attempt gives a tool the text once, if it is its turn and it is available. -/
theorem given_attemptFrom (text : Text) (position i : Nat) (last : Error)
    (tools : List Tool) :
    given (position + i) (attemptFrom text position last tools).events =
      if IsGiven tools i then [text] else [] := by
  induction tools generalizing position i last with
  | nil => exact (if_neg fun h => absurd h.1.1 (Nat.not_lt_zero i)).symm
  | cons tool tools ih =>
      cases h : tool.accepts with
      | true =>
          rw [attemptFrom_of_accepts h, given_events]
          cases i with
          | zero => simp [isGiven_zero]
          | succ i => simp [isGiven_succ, h]
      | false =>
          rw [attemptFrom_of_refuses h, Attempt.after, given_append, given_events]
          cases i with
          | zero =>
              -- The tools after it stand at later positions.
              rw [given_eq_nil fun t hgive => ?_]
              · simp [isGiven_zero]
              · obtain ⟨j, other, -, -, hother⟩ := mem_events_attemptFrom.1 hgive
                have hposition := (give_mem_events.1 hother).1
                omega
          | succ i =>
              have hrest := ih (position + 1) i (tool.errorAfter last)
              rw [Nat.add_assoc, Nat.add_comm 1] at hrest
              rw [hrest]
              simp [isGiven_succ, h]

theorem given_attempt (i : Nat) (tools : List Tool) (text : Text) :
    given i (attempt tools text).events = if IsGiven tools i then [text] else [] := by
  have hgiven := given_attemptFrom text 0 i .noToolAvailable tools
  rwa [Nat.zero_add] at hgiven

theorem given_eventsOf (i : Nat) (history : List (List Tool × Text)) :
    given i (eventsOf history) =
      (history.filter fun past => IsGiven past.1 i).map Prod.snd := by
  induction history with
  | nil => rfl
  | cons past history ih =>
      rw [eventsOf, List.flatMap_cons, given_append, given_attempt, ← eventsOf, ih,
        List.filter_cons]
      by_cases h : IsGiven past.1 i <;> simp [h]

/-- Tools are tried in their order until one accepts the text, and the answer is that of an
attempt. Over a history, a tool is given the texts of the attempts in which it was its turn
and it was available, each of them once and in their order. -/
theorem copy_fallsBack (tools : List Tool) (text : Text) (history : List (List Tool × Text))
    (i : Nat) :
    FallsBack tools text (attempt tools text) ∧
      copy tools text = (attempt tools text).answer ∧
      ((asked tools)[i]? = some true ↔ IsGiven tools i) ∧
      given i (eventsOf history) =
        (history.filter fun past => IsGiven past.1 i).map Prod.snd ∧
      (given i (eventsOf history)).length = history.countP fun past => IsGiven past.1 i := by
  refine ⟨fallsBack_attempt tools text, (answer_attempt tools text).symm,
    getElem?_asked tools i, given_eventsOf i history, ?_⟩
  rw [given_eventsOf, List.length_map, List.countP_eq_length_filter]

end Clipboard

end SourceMarkup
