import SourceMarkup.Clipboard.Program

/-!
# Which clipboard programs are run

Tools are tried one after the other until one accepts the text. On Linux the tools are
three programs, and those that `which` does not find or that are not installed are passed
over, so what happens is told by the others and their codes: they are run in their order,
up to the first that ends with zero. If there is none, all of them are run, and the last
one is reported.
-/

namespace SourceMarkup

namespace Clipboard

variable {programs : Programs} {size : Nat} {last : Error} {method : Method}
  {methods : List Method}

/-- The methods whose programs can be used: `which` finds them, and they are installed. -/
def usable (programs : Programs) (methods : List Method) : List Method :=
  methods.filter fun method => programs.which method.name && programs.has method.name

def Method.Succeeds (programs : Programs) (method : Method) : Prop :=
  programs.codes.lookup method.name = some 0

def Method.failure (method : Method) : Error :=
  .toolFailed method (method.name ++ " failed".toList)

/-- The error to report after programs that failed, where `last` was the error to report
before. -/
def failureAfter (last : Error) (failed : List Method) : Error :=
  (failed.getLast?.map Method.failure).getD last

/-- How programs end that are run one after the other: which of them are run, and the
answer to a text of `size` bytes. -/
inductive Tries (programs : Programs) (size : Nat) (last : Error) (methods : List Method) :
    List Method → Answer → Prop
  | succeeds {failed rest : List Method} {method : Method}
      (hmethods : methods = failed ++ method :: rest)
      (hfailed : ∀ m ∈ failed, ¬ m.Succeeds programs) (hmethod : method.Succeeds programs) :
      Tries programs size last methods (failed ++ [method]) (.ok ⟨method, size⟩)
  | fails (hfailed : ∀ m ∈ methods, ¬ m.Succeeds programs) :
      Tries programs size last methods methods (.error (failureAfter last methods))

theorem Tries.of_succeeds (h : method.Succeeds programs) :
    Tries programs size last (method :: methods) [method] (.ok ⟨method, size⟩) := by
  have hmethods : method :: methods = [] ++ method :: methods := rfl
  exact .succeeds hmethods (List.forall_mem_nil _) h

/-- After a program that failed the others are run, and its failure is the one to report
if there are none. -/
theorem Tries.cons {ran : List Method} {answer : Answer} (h : ¬ method.Succeeds programs)
    (hrest : Tries programs size method.failure methods ran answer) :
    Tries programs size last (method :: methods) (method :: ran) answer := by
  cases hrest with
  | @succeeds failed rest found hmethods hfailed hfound =>
      have hmethods : method :: methods = (method :: failed) ++ found :: rest := by
        rw [hmethods, List.cons_append]
      exact .succeeds hmethods (List.forall_mem_cons.2 ⟨h, hfailed⟩) hfound
  | fails hfailed =>
      have hfailure :
          failureAfter method.failure methods = failureAfter last (method :: methods) := by
        rw [failureAfter, failureAfter, List.getLast?_cons]
        cases methods.getLast? <;> rfl
      rw [hfailure]
      exact .fails (List.forall_mem_cons.2 ⟨h, hfailed⟩)

/-! ### Tools of Linux -/

/-- The methods among `methods` whose programs are run: their tools are given a text, and
they are installed. -/
def ran (programs : Programs) (methods : List Method) : List Method :=
  (((methods.zip (asked (methods.map (·.tool .linux programs)))).filter Prod.snd).map
    Prod.fst).filter fun method => programs.has method.name

theorem tool_linux (h : method.platform = .linux) :
    method.tool .linux programs =
      ⟨method, programs.which method.name, method.outcome programs⟩ := by
  cases method with
  | pbcopy => contradiction
  | xclip => rfl
  | xsel => rfl
  | wlCopy => rfl

theorem outcome_of_succeeds (h : method.Succeeds programs) :
    method.outcome programs = .accepted := by
  rw [Method.outcome, h]

theorem outcome_of_fails (hhas : programs.has method.name = true)
    (h : ¬ method.Succeeds programs) :
    method.outcome programs = .failed (method.name ++ " failed".toList) := by
  obtain ⟨code, hcode⟩ := Option.isSome_iff_exists.1 hhas
  cases code with
  | zero => exact absurd hcode h
  | succ code => rw [Method.outcome, hcode]

theorem outcome_of_not_has (hhas : programs.has method.name = false) :
    method.outcome programs = .notFound := by
  rw [Method.outcome, Option.isSome_eq_false_iff.1 hhas |> Option.isNone_iff_eq_none.1]

/-- A program that is not installed is passed over, whatever `which` says of it. -/
theorem not_accepts_of_unusable (h : method.platform = .linux)
    (hunusable : (programs.which method.name && programs.has method.name) = false) :
    (method.tool .linux programs).accepts = false ∧
      ∀ last, (method.tool .linux programs).errorAfter last = last := by
  rw [tool_linux h]
  rcases Bool.and_eq_false_iff.1 hunusable with hwhich | hhas
  · rw [hwhich]
    exact ⟨rfl, fun last => rfl⟩
  · rw [outcome_of_not_has hhas]
    exact ⟨Bool.and_false _, fun last => by cases programs.which method.name <;> rfl⟩

theorem ran_of_accepts (haccepts : (method.tool .linux programs).accepts = true)
    (hhas : programs.has method.name = true) : ran programs (method :: methods) = [method] := by
  have hothers (tools : List Tool) :
      (methods.zip (tools.map fun _ => false)).filter Prod.snd = [] := by
    rw [List.filter_eq_nil_iff]
    intro pair hpair
    obtain ⟨-, -, hsnd⟩ := List.mem_map.1 (List.of_mem_zip hpair).2
    rw [← hsnd]
    exact Bool.false_ne_true
  rw [ran, List.map_cons, asked, if_pos haccepts, List.zip_cons_cons,
    List.filter_cons_of_pos rfl, hothers]
  exact List.filter_cons_of_pos hhas

theorem ran_of_not_accepts (h : method.platform = .linux)
    (haccepts : (method.tool .linux programs).accepts = false) :
    ran programs (method :: methods) =
      if programs.which method.name && programs.has method.name then
        method :: ran programs methods
      else ran programs methods := by
  rw [ran, List.map_cons, asked, if_neg (Bool.eq_false_iff.1 haccepts), List.zip_cons_cons,
    tool_linux h]
  cases hwhich : programs.which method.name with
  | false => rfl
  | true =>
      rw [List.filter_cons_of_pos rfl, List.map_cons, List.filter_cons, Bool.true_and]
      rfl

theorem usable_cons (method : Method) (methods : List Method) :
    usable programs (method :: methods) =
      if programs.which method.name && programs.has method.name then
        method :: usable programs methods
      else usable programs methods :=
  List.filter_cons

/-- The tools of Linux are tried as the programs are that can be used. The induction is
over the methods, with the error to report so far. -/
theorem tries_usable (hmethods : ∀ m ∈ methods, m.platform = .linux) (size : Nat)
    (last : Error) :
    Tries programs size last (usable programs methods) (ran programs methods)
      (answerFrom size last (methods.map (·.tool .linux programs))) := by
  induction methods generalizing last with
  | nil => exact .fails (List.forall_mem_nil _)
  | cons method methods ih =>
      obtain ⟨hmethod, hmethods⟩ := List.forall_mem_cons.1 hmethods
      rw [List.map_cons, answerFrom]
      cases husable : programs.which method.name && programs.has method.name with
      | false =>
          obtain ⟨haccepts, hlast⟩ := not_accepts_of_unusable hmethod husable
          rw [if_neg (Bool.eq_false_iff.1 haccepts), hlast, ran_of_not_accepts hmethod haccepts,
            if_neg (Bool.eq_false_iff.1 husable), usable_cons,
            if_neg (Bool.eq_false_iff.1 husable)]
          exact ih hmethods last
      | true =>
          obtain ⟨hwhich, hhas⟩ := Bool.and_eq_true_iff.1 husable
          have htool : method.tool .linux programs = _ := tool_linux hmethod
          rw [hwhich] at htool
          rw [usable_cons, if_pos husable]
          by_cases hsucceeds : method.Succeeds programs
          · rw [outcome_of_succeeds hsucceeds] at htool
            have haccepts : (method.tool .linux programs).accepts = true := by
              rw [htool]
              rfl
            rw [if_pos haccepts, ran_of_accepts haccepts hhas]
            exact .of_succeeds hsucceeds
          · rw [outcome_of_fails hhas hsucceeds] at htool
            have haccepts : (method.tool .linux programs).accepts = false := by
              rw [htool]
              rfl
            have hfailure : (method.tool .linux programs).errorAfter last = method.failure := by
              rw [htool]
              rfl
            rw [if_neg (Bool.eq_false_iff.1 haccepts), hfailure,
              ran_of_not_accepts hmethod haccepts, if_pos husable]
            exact (ih hmethods method.failure).cons hsucceeds

/-- Copying on Linux runs those programs of its methods that can be used. -/
theorem copy_linux (programs : Programs) (text : Text) :
    Tries programs text.byteLength .noToolAvailable
      (usable programs [.xclip, .xsel, .wlCopy])
      (Platform.linux.copy programs text).2 (Platform.linux.copy programs text).1 :=
  tries_usable (by decide) text.byteLength .noToolAvailable

/-! ### Programs by name -/

def linuxPrograms : List Text :=
  ["xclip".toList, "xsel".toList, "wl-copy".toList]

/-- `which` finds those of the clipboard programs that are installed. -/
def Programs.WhichFinds (programs : Programs) : Prop :=
  ∀ name ∈ linuxPrograms, programs.which name = programs.has name

theorem map_name_usable (h : programs.WhichFinds) :
    (usable programs [.xclip, .xsel, .wlCopy]).map Method.name =
      linuxPrograms.filter programs.has := by
  have husable : (usable programs [.xclip, .xsel, .wlCopy]).map Method.name =
      linuxPrograms.filter fun name => programs.which name && programs.has name := by
    have hnames : linuxPrograms = [.xclip, .xsel, .wlCopy].map Method.name := rfl
    rw [hnames, List.filter_map]
    rfl
  rw [husable]
  refine List.filter_congr fun name hname => ?_
  rw [h name hname, Bool.and_self]

end Clipboard

end SourceMarkup
