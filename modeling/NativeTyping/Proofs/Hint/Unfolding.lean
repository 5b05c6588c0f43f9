import Mathlib.Data.List.TakeDrop
import NativeTyping.Proofs.Hint.Splitting
import NativeTyping.Ty.Hint
/-!
What a hint denotes, in terms of the hints inside it.

The steps that are counted down while a hint is read are always enough, because every hint
inside another is shorter. So the type of a hint is that of its members or of its head and
arguments, and no count is left.
-/

namespace NativeTyping

namespace Hint

open Text

def denote (written : List Char) : Ty :=
  denoteIn (written.length + 1) written

/-! ## Hints inside a hint are shorter -/

private theorem length_unquote_le (written : List Char) :
    (unquote written).length ≤ written.length :=
  length_trimWhile_le.trans length_trimWhile_le

private theorem length_lt_of_mem_members {hint member : List Char}
    (several : 1 < (splitTopLevel '|' hint).length) (among : member ∈ splitTopLevel '|' hint) :
    member.length < hint.length := by
  have counted := length_add_length_splitTopLevel_le among
  omega

private theorem length_lt_of_mem_application {hint argument : List Char}
    (among : argument ∈ (application hint).2) : argument.length < hint.length := by
  have whole := List.takeWhile_append_dropWhile (p := fun char => decide (char ≠ '[')) (l := hint)
  rw [application, List.span_eq_takeWhile_dropWhile] at among
  generalize hint.takeWhile (fun char => decide (char ≠ '[')) = head at whole among
  generalize hint.dropWhile (fun char => decide (char ≠ '[')) = bracketed at whole among
  cases bracketed with
  | nil => simp at among
  | cons bracket inner =>
      have lengths := congrArg List.length whole
      simp only [List.length_append, List.length_cons] at lengths
      by_cases last : hint.getLast? = some ']'
      · simp only [last, if_true] at among
        have counted := length_add_length_splitTopLevel_le among
        have some := List.length_pos_of_mem among
        rw [List.length_dropLast] at counted
        omega
      · simp [last] at among

private theorem length_le_of_mem_callableParams {params param : List Char}
    (among : param ∈ callableParams params) : param.length ≤ params.length := by
  have counted := length_add_length_splitTopLevel_le (List.mem_of_mem_filter among)
  have some := List.length_pos_of_mem (List.mem_of_mem_filter among)
  have trimmed : (trim params).length ≤ params.length := length_trimWhile_le
  have opened : ((trim params).dropWhile fun char => decide (char = '[')).length ≤
      (trim params).length := (List.dropWhile_suffix _).length_le
  have bare := length_dropWhileEnd_le (fun char => decide (char = ']'))
    ((trim params).dropWhile fun char => decide (char = '['))
  omega

/-! ## Enough steps -/

private theorem denoteApplication_congr {first second : List Char → Ty} (head : List Char)
    {arguments : List (List Char)} {bound : Nat}
    (agree : ∀ written : List Char, written.length < bound → first written = second written)
    (short : ∀ argument ∈ arguments, argument.length < bound) :
    denoteApplication first head arguments = denoteApplication second head arguments := by
  have each : ∀ argument ∈ arguments, first argument = second argument :=
    fun argument member => agree argument (short argument member)
  have positions : ∀ position : Nat,
      (arguments[position]?).map first = (arguments[position]?).map second := by
    intro position
    cases found : arguments[position]? with
    | none => rfl
    | some argument =>
        rw [Option.map_some, Option.map_some, each argument (List.mem_of_getElem? found)]
  have all : arguments.map first = arguments.map second := List.map_congr_left each
  have kept : (arguments.filter fun written => trim written ≠ ellipsis).map first =
      (arguments.filter fun written => trim written ≠ ellipsis).map second :=
    List.map_congr_left fun argument member => each argument (List.mem_of_mem_filter member)
  rcases arguments with _ | ⟨params, _ | ⟨result, _ | ⟨extra, others⟩⟩⟩
  case cons.cons.nil =>
    have inside : (callableParams params).map first = (callableParams params).map second := by
      apply List.map_congr_left
      intro param member
      have shorter := length_le_of_mem_callableParams member
      have bounded := short params List.mem_cons_self
      exact agree param (by omega)
    have last : first result = second result := each result (by simp)
    simp only [denoteApplication, positions, all, kept, inside, last]
  all_goals simp only [denoteApplication, positions, all, kept]

def denoteStep (denote : List Char → Ty) (written : List Char) : Ty :=
  let hint := unquote written
  if hint.isEmpty then .unknown
  else if 1 < (splitTopLevel '|' hint).length then union ((splitTopLevel '|' hint).map denote)
  else denoteApplication denote (unqualified (application hint).1) (application hint).2

private theorem denoteIn_succ (steps : Nat) (written : List Char) :
    denoteIn (steps + 1) written = denoteStep (denoteIn steps) written := rfl

private theorem denoteStep_congr {first second : List Char → Ty} {written : List Char}
    (agree : ∀ inner : List Char, inner.length < written.length → first inner = second inner) :
    denoteStep first written = denoteStep second written := by
  have shorter := length_unquote_le written
  have within : ∀ inner : List Char, inner.length < (unquote written).length →
      first inner = second inner := fun inner isShorter => agree inner (by omega)
  rw [denoteStep, denoteStep]
  split
  · rfl
  · split
    · have members : (splitTopLevel '|' (unquote written)).map first =
          (splitTopLevel '|' (unquote written)).map second :=
        List.map_congr_left fun member among =>
          within member (length_lt_of_mem_members ‹_› among)
      rw [members]
    · exact denoteApplication_congr _ within fun argument => length_lt_of_mem_application

private theorem denoteIn_eq {first second : Nat} {written : List Char}
    (enough : written.length < first)
    (alsoEnough : written.length < second) : denoteIn first written = denoteIn second written := by
  induction first generalizing second written with
  | zero => omega
  | succ first induction =>
      cases second with
      | zero => omega
      | succ second =>
          rw [denoteIn_succ, denoteIn_succ]
          apply denoteStep_congr
          intro inner isShorter
          exact induction (by omega) (by omega)

/-! ## The type of a hint -/

theorem denote_eq (written : List Char) : denote written = denoteStep denote written := by
  rw [denote, denoteIn_succ]
  apply denoteStep_congr
  intro inner isShorter
  exact denoteIn_eq isShorter (Nat.lt_succ_self _)

/-- A hint with several members is the union of these. -/
theorem denote_of_members {written : List Char} (some : unquote written ≠ [])
    (several : 1 < (splitTopLevel '|' (unquote written)).length) :
    denote written = union ((splitTopLevel '|' (unquote written)).map denote) := by
  rw [denote_eq, denoteStep, if_neg (by simpa using some), if_pos several]

/-- A hint with one member has the type of its head and its arguments. -/
theorem denote_of_application {written : List Char} (some : unquote written ≠ [])
    (single : (splitTopLevel '|' (unquote written)).length = 1) :
    denote written =
      denoteApplication denote (unqualified (application (unquote written)).1)
        (application (unquote written)).2 := by
  rw [denote_eq, denoteStep, if_neg (by simpa using some), if_neg (by omega)]

end Hint

end NativeTyping
