import ApiModel.Output.Markup
import Mathlib.Data.List.Basic
import Mathlib.Tactic.SplitIfs

/-!
# Text without brackets is shown as it is

**Theorem (`finish_plain`).** Behind whatever has been read, as long as no tag is begun, text
without opening brackets is shown unchanged. So a console that reads markup shows every message in
which no bracket opens (`shown_append_of_plain`).
-/

namespace ApiModel.Output.Markup

variable {r : Reading} {c : Char} {s : List Char}

/-- A character that begins no tag is shown, a backslash as soon as something else follows. -/
theorem Reading.step_plain (hbody : r.body = none) (hc : c ≠ '[') :
    ∃ r', r.step c = .ok r' ∧ r'.body = none ∧ r'.finish = r.finish ++ [c] := by
  have hbracket : (c == '[') = false := beq_false_of_ne hc
  have htake : r.take c = .ok (r.outside c) := by rw [Reading.take, hbody]
  refine ⟨_, by rw [Reading.step, htake]; rfl, ?_⟩
  rw [Reading.outside, hbracket]
  split_ifs with hbackslash hfalse
  · refine ⟨hbody, ?_⟩
    obtain rfl : c = '\\' := beq_iff_eq.1 hbackslash
    simp only [Reading.finish, hbody, backslashes, List.append_assoc, List.replicate_succ']
  · cases hfalse
  · refine ⟨rfl, ?_⟩
    simp [Reading.finish, hbody, Reading.show, backslashes]

/-- Text without opening brackets is shown unchanged behind what has been read. -/
theorem finish_plain (hbody : r.body = none) (hs : '[' ∉ s) :
    (s.foldlM Reading.step r).map Reading.finish = .ok (r.finish ++ s) := by
  induction s generalizing r with
  | nil =>
    rw [List.append_nil]
    rfl
  | cons c s ih =>
    rw [List.mem_cons, not_or] at hs
    obtain ⟨r', hstep, hbody', hfinish⟩ := Reading.step_plain hbody (Ne.symm hs.1)
    rw [List.foldlM_cons, hstep]
    show (s.foldlM Reading.step r').map Reading.finish = _
    rw [ih hbody' hs.2, hfinish, List.append_assoc]
    rfl

/-- A message without opening brackets is shown unchanged behind a heading that leaves no tag
begun. -/
theorem shown_append_of_plain {heading message : String}
    (hheading : heading.toList.foldlM Reading.step {} = .ok r) (hbody : r.body = none)
    (hmessage : '[' ∉ message.toList) :
    shown (heading ++ message) = .ok (String.ofList (r.finish ++ message.toList)) := by
  have hread := finish_plain hbody hmessage
  rw [shown, String.toList_append, List.foldlM_append, hheading]
  show (message.toList.foldlM Reading.step r).map _ = _
  cases h : message.toList.foldlM Reading.step r with
  | ok r' =>
    rw [h] at hread
    exact congrArg (Except.ok ∘ String.ofList) (Except.ok.inj hread)
  | error why =>
    rw [h] at hread
    cases hread

end ApiModel.Output.Markup
