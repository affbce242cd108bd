/-
# Recovering from output cut short

A crash or a time limit may cut the output of a harness after any character. Until the end mark is
complete the framed list is not read, so the scan decides what is recovered. It finds every verdict
that is complete. In the verdict that the cut falls in it goes on looking, since a start without an
end may be chatter in front of a real verdict, and so it also takes what a complete object among
the verdict's data says, when that object starts like a verdict itself.

An expected value may be such an object. A cut right behind it then leaves one passing verdict
where the case had failed, and a run of that one case counts as passed. Where no object among the
data starts like a verdict, exactly the complete verdicts are recovered, and a run that was cut
before its last verdict is never reported as passed.
-/

import HarnessSynthesis.Report
import HarnessSynthesis.Proofs.Recovery.Framed

namespace HarnessSynthesis

open Json Recovery

namespace Recovery

/-- What extraction makes of the values that the scan has found. -/
def outcome : List Value → Except RecoveryError (List Value)
  | [] => .error .noResults
  | items => .ok items

theorem extract_of_framedItems?_eq_none {raw : Text} (missing : framedItems? raw = none) :
    extract raw = outcome (scan raw) := by
  rw [extract, missing]
  cases scan raw <;> rfl

end Recovery

namespace RunReport

theorem statusOf_ne_passed {total : Nat} {verdicts : List Verdict}
    (few : verdicts.length < total) : statusOf total verdicts ≠ .passed := by
  rw [statusOf, if_neg fun all => Nat.ne_of_lt few all.2]
  exact RunStatus.noConfusion

/-- A run is not reported as passed when fewer values are found than there are cases. -/
theorem status_ne_passed_of_extract {r : JudgeResponse} {items : List Value} {total : Nat}
    (extracted : extract (r.output.getD []) = outcome items) (few : items.length < total)
    (runId : RunId) (language : Language) :
    (ofResponse runId language total r).status ≠ .passed := by
  intro passed
  simp only [ofResponse, extractVerdicts, extracted] at passed
  cases items with
  | nil => cases passed
  | cons item rest =>
    have fewer := Nat.lt_of_le_of_lt (List.length_filterMap_le
      (fun item => (Verdict.decoder.decodeValue item).toOption) (item :: rest)) few
    exact statusOf_ne_passed fewer passed

end RunReport

namespace PrintedVerdict

/-! ## Which verdicts a cut leaves complete -/

/-- Whether no object among the data of a verdict starts like a verdict. -/
def IsPlain (v : PrintedVerdict) : Prop :=
  (Node.ofValue v.expected).holdsVerdictStart = false ∧
    (Node.ofValue v.actual).holdsVerdictStart = false

/-- The verdicts that lie wholly within the first `room` characters behind the opening bracket of
their list. -/
def completeWithin : (room : Nat) → List PrintedVerdict → List PrintedVerdict
  | _, [] => []
  | room, v :: vs =>
    if v.text.length ≤ room then v :: completeWithin (room - (v.text.length + 1)) vs else []

/-- What the verdict that the cut falls in holds of objects that start like a verdict. -/
def remnants : (room : Nat) → List PrintedVerdict → List Value
  | _, [] => []
  | room, v :: vs =>
    if v.text.length ≤ room then remnants (room - (v.text.length + 1)) vs
    else v.node.embedded room

/-- How many characters stand in front of the first verdict of a framed list. -/
def listStart : Nat :=
  startMark.length + 2

theorem length_text_pos (v : PrintedVerdict) : 0 < v.text.length := by
  rw [text, node, Node.write, List.cons_append]
  exact Nat.succ_pos _

theorem completeWithin_isPrefix (room : Nat) (vs : List PrintedVerdict) :
    completeWithin room vs <+: vs := by
  induction vs generalizing room with
  | nil => exact List.prefix_rfl
  | cons v vs ih =>
    rw [completeWithin]
    split
    · exact List.cons_prefix_cons.2 ⟨rfl, ih _⟩
    · exact List.nil_prefix

theorem length_join_pos (us : List PrintedVerdict) (v : PrintedVerdict) :
    0 < (Text.join [','] ((us ++ [v]).map text)).length := by
  cases us with
  | nil => exact v.length_text_pos
  | cons u us =>
    have positive := u.length_text_pos
    cases us <;> simp only [List.cons_append, List.nil_append, List.map_cons, List.map_nil,
      Text.join, List.length_append] <;> omega

/-- A verdict is complete exactly when the list up to it fits. -/
theorem length_lt_completeWithin_iff (us : List PrintedVerdict) (v : PrintedVerdict)
    (vs : List PrintedVerdict) (room : Nat) :
    us.length < (completeWithin room (us ++ v :: vs)).length ↔
      (Text.join [','] ((us ++ [v]).map text)).length ≤ room := by
  induction us generalizing room with
  | nil =>
    rw [List.nil_append, completeWithin, List.nil_append, List.map_singleton, Text.join]
    split
    · exact iff_of_true (Nat.succ_pos _) ‹_›
    · exact iff_of_false (Nat.lt_irrefl 0) ‹_›
  | cons u us ih =>
    have further : (Text.join [','] ((u :: us ++ [v]).map text)).length =
        u.text.length + 1 + (Text.join [','] ((us ++ [v]).map text)).length := by
      cases us <;> simp only [List.cons_append, List.nil_append, List.map_cons, List.map_nil,
        Text.join, List.length_append, List.length_cons, List.length_nil]
    have positive := length_join_pos us v
    rw [further, List.cons_append, completeWithin]
    split
    · rw [List.length_cons, List.length_cons, Nat.succ_lt_succ_iff, ih]
      omega
    · exact iff_of_false (Nat.not_lt_zero _) (by omega)

/-! ## The scan of a cut list -/

theorem embeddedItems_nodes (room : Nat) (vs : List PrintedVerdict) :
    Node.embeddedItems room (vs.map node) =
      (completeWithin room vs).map value ++ remnants room vs := by
  have beyond (ws : List PrintedVerdict) : Node.embeddedItems 0 (ws.map node) = [] := by
    have nothing := scan_take_writeItems (ws.map node) (t := []) 0 (itemsIntegral_nodes ws)
      (by simp)
    rw [List.take_zero, Nat.zero_sub, List.take_zero, scan_nil, List.append_nil] at nothing
    exact nothing.symm
  induction vs generalizing room with
  | nil => rfl
  | cons v vs ih =>
    rw [List.map_cons, Node.embeddedItems, completeWithin, remnants]
    split
    · rename_i whole
      have taken : v.node.embedded room = [v.value] := by
        rw [node, Node.embedded, v.startsLikeVerdict_node, Bool.true_and, ← node, ← text,
          if_pos (decide_eq_true whole), v.toValue?_node, Option.toList_some]
      rw [taken, ← text, ih]
      rfl
    · rename_i cut
      have none : room - (v.node.write.length + 1) = 0 := by
        rw [← text]
        omega
      rw [none, beyond, List.append_nil, List.map_nil, List.nil_append]

/-- The scan of a framed list that is cut finds the complete verdicts and what is left of the next
one. -/
theorem scan_take_framed (vs : List PrintedVerdict) (k : Nat) :
    scan ((framed vs).take k) =
      (completeWithin (k - listStart) vs).map value ++ remnants (k - listStart) vs := by
  have nothing (m : Nat) : scan ((']' :: '\n' :: endMark).take m) = [] := by
    have behind := scan_take_append_of_not_mem (s := ']' :: '\n' :: endMark) (by decide) [] m
    rw [List.append_nil, List.take_nil, scan_nil] at behind
    exact behind
  rw [framed_eq_writeItems, scan_take_append_of_not_mem (by decide),
    scan_take_writeItems (vs.map node) _ (itemsIntegral_nodes vs) (by simp), nothing,
    List.append_nil, embeddedItems_nodes]
  rfl

theorem membersHoldVerdictStart_node {v : PrintedVerdict} (plain : v.IsPlain) :
    Node.membersHoldVerdictStart (Node.ofMembers v.members) = false := by
  have each := v.forall_mem_members (P := fun w => (Node.ofValue w).holdsVerdictStart = false)
    (fun _ => rfl) plain.1 plain.2 rfl
  generalize v.members = members at each
  induction members with
  | nil => rfl
  | cons m rest ih =>
    rw [List.forall_mem_cons] at each
    rw [Node.ofMembers, Node.membersHoldVerdictStart, each.1, Bool.false_or, ih each.2]

/-- Of plain verdicts a cut leaves nothing behind. -/
theorem remnants_eq_nil {vs : List PrintedVerdict} (plain : ∀ v ∈ vs, v.IsPlain) (room : Nat) :
    remnants room vs = [] := by
  induction vs generalizing room with
  | nil => rfl
  | cons v vs ih =>
    rw [remnants]
    split
    · exact ih (fun w found => plain w (List.mem_cons_of_mem v found)) _
    · rename_i cut
      have nothing := Node.embeddedMembers_eq_nil _ (room - 1)
        (membersHoldVerdictStart_node (plain v List.mem_cons_self))
      rw [node, Node.embedded, ← node, ← text, decide_eq_false cut, Bool.and_false,
        if_neg Bool.false_ne_true, nothing]

/-! ## Nothing is framed -/

theorem length_trim_lt {payload : Text} {vs : List PrintedVerdict}
    (inside : payload <+: '\n' :: listText vs) (short : payload ≠ '\n' :: listText vs) :
    payload.trim.length < (listText vs).length := by
  cases payload with
  | nil => rw [listText_eq]; exact Nat.succ_pos _
  | cons c t =>
    obtain ⟨rfl, begun⟩ := List.cons_prefix_cons.1 inside
    rw [Text.trim, Text.trimStart_cons_of_isBlank (by decide), ← Text.trim]
    refine Nat.lt_of_le_of_lt (Text.length_trim_le t) (Nat.lt_of_le_of_ne begun.length_le ?_)
    intro same
    exact short (by rw [begun.eq_of_length same])

/-- What stands in front of an end mark in a list whose own end mark is cut is a proper beginning of
the list and its line. -/
theorem payload_isPrefix_of_cut {vs : List PrintedVerdict} {m : Nat} {payload after : Text}
    (short : m < ('\n' :: (listText vs ++ '\n' :: endMark)).length)
    (stop : Text.cut? endMark (('\n' :: (listText vs ++ '\n' :: endMark)).take m) =
      some (payload, after)) :
    payload <+: '\n' :: listText vs ∧ payload ≠ '\n' :: listText vs := by
  have whole := Text.eq_append_of_cut? stop
  have begun : payload ++ endMark <+: '\n' :: listText vs ++ '\n' :: endMark :=
    (List.prefix_append _ after).trans (whole ▸ List.take_prefix _ _)
  have shorter : payload.length ≤ ('\n' :: listText vs).length := by
    have lengths := congrArg List.length whole
    rw [List.length_take] at lengths
    simp only [List.length_append, List.length_cons] at short lengths ⊢
    omega
  constructor
  · exact List.prefix_of_prefix_length_le ((List.prefix_append _ _).trans begun)
      (List.prefix_append _ _) shorter
  · rintro rfl
    rw [List.prefix_append_right_inj] at begun
    exact absurd begun (by decide)

/-- A list whose end mark is cut is not read as framed. -/
theorem framedItems?_take_framed {vs : List PrintedVerdict} {k : Nat}
    (short : k < (framed vs).length) : framedItems? ((framed vs).take k) = none := by
  rw [framed_eq] at short ⊢
  by_cases early : k < startMark.length
  · have missing : Text.cut? startMark
        ((startMark ++ '\n' :: (listText vs ++ '\n' :: endMark)).take k) = none :=
      Text.cut?_eq_none_of_length_lt (Nat.lt_of_le_of_lt (List.length_take_le _ _) early)
    refine framedItems?_of_framed?_eq_none ?_
    simp only [framed?, missing, Option.bind_eq_bind, Option.bind_none]
  · have start : Text.cut? startMark
        ((startMark ++ '\n' :: (listText vs ++ '\n' :: endMark)).take k) =
          some ([], ('\n' :: (listText vs ++ '\n' :: endMark)).take (k - startMark.length)) := by
      rw [List.take_append, List.take_of_length_le (Nat.le_of_not_lt early),
        Text.cut?_eq_some_of_isPrefix (by decide)]
    cases stop : Text.cut? endMark
        (('\n' :: (listText vs ++ '\n' :: endMark)).take (k - startMark.length)) with
    | none => exact framedItems?_of_framed?_eq_none (framed?_eq_none_of_cut? start stop)
    | some parts =>
      obtain ⟨payload, after⟩ := parts
      have shorter : k - startMark.length < ('\n' :: (listText vs ++ '\n' :: endMark)).length := by
        rw [List.length_append] at short
        omega
      obtain ⟨inside, proper⟩ := payload_isPrefix_of_cut shorter stop
      have less := length_trim_lt inside proper
      rw [framedItems?_of_framed? (framed?_of_cut? start stop),
        Value.parse?_eq_none_of_cut (itemsIntegral_nodes vs) (trim_isPrefix inside)
          (fun same => Nat.lt_irrefl _ (same ▸ less)),
        Option.bind_none]

/-! ## Extraction -/

/-- Of a framed list that is cut before the end of its end mark, exactly the complete verdicts are
recovered, in their order, and behind them what the verdict that the cut falls in holds of complete
objects that start like a verdict. Plain verdicts hold none. Where none is held, a run whose last
verdict is not complete is not reported as passed. -/
theorem extract_take_framed (vs : List PrintedVerdict) {k : Nat} (short : k < (framed vs).length) :
    extract ((framed vs).take k) =
        outcome ((completeWithin (k - listStart) vs).map value ++ remnants (k - listStart) vs) ∧
      ((∀ v ∈ vs, v.IsPlain) → remnants (k - listStart) vs = []) ∧
      (remnants (k - listStart) vs = [] → completeWithin (k - listStart) vs ≠ vs →
        ∀ (runId : RunId) (language : Language) (errors compilerOutput : Option Text),
          (RunReport.ofResponse runId language vs.length
            ⟨some ((framed vs).take k), errors, compilerOutput⟩).status ≠ .passed) := by
  have extracted : extract ((framed vs).take k) =
      outcome ((completeWithin (k - listStart) vs).map value ++ remnants (k - listStart) vs) := by
    rw [extract_of_framedItems?_eq_none (framedItems?_take_framed short), scan_take_framed]
  refine ⟨extracted, fun plain => remnants_eq_nil plain _, ?_⟩
  intro nothing incomplete runId language errors compilerOutput
  have front := completeWithin_isPrefix (k - listStart) vs
  have fewer : ((completeWithin (k - listStart) vs).map value).length < vs.length := by
    rw [List.length_map]
    exact Nat.lt_of_le_of_ne front.length_le fun same => incomplete (front.eq_of_length same)
  rw [nothing, List.append_nil] at extracted
  exact RunReport.status_ne_passed_of_extract (r := ⟨some _, errors, compilerOutput⟩) extracted
    fewer runId language

/-- A failing verdict on a case that expects an object with a passing status. -/
def forging : PrintedVerdict where
  status := .fail
  expected := .object [("status".toList, .string "pass".toList)]
  actual := .null
  time := 0
  logs := none
  error := none
  expected_isPrintable := ⟨by decide, by decide, by decide⟩
  actual_isPrintable := ⟨by decide, by decide, by decide⟩
  time_isWord := by decide

theorem noisy_isPlain : noisy.IsPlain := ⟨by decide, by decide⟩

theorem extract_take_framed_forging :
    extract ((framed [forging, noisy]).take 87) =
        .ok [.object [("status".toList, .string "pass".toList)]] ∧
      (RunReport.ofResponse .nil .python 1
        ⟨some ((framed [noisy]).take 50), none, none⟩).status ≠ .passed := by
  have cut := extract_take_framed [noisy] (k := 50) (by decide)
  refine ⟨(extract_take_framed [forging, noisy] (by decide)).1, ?_⟩
  exact cut.2.2 (cut.2.1 (List.forall_mem_singleton.2 noisy_isPlain))
    (List.cons_ne_nil noisy []).symm .nil .python none none

/-- A cut behind the expected value of the only verdict, which has failed: no verdict is complete,
yet one is recovered, and the run is reported as passed. -/
theorem cut_forges_passed_run :
    71 < (framed [forging]).length ∧ completeWithin (71 - listStart) [forging] = [] ∧
      extract ((framed [forging]).take 71) =
        .ok [.object [("status".toList, .string "pass".toList)]] ∧
      (RunReport.ofResponse .nil .python 1 ⟨some ((framed [forging]).take 71), none, none⟩).status =
        .passed := by
  have short : 71 < (framed [forging]).length := by decide
  have forged : extract ((framed [forging]).take 71) =
      .ok [.object [("status".toList, .string "pass".toList)]] := by
    rw [extract_of_framedItems?_eq_none (framedItems?_take_framed short), scan_take_framed]
    rfl
  refine ⟨short, by decide, forged, ?_⟩
  simp only [RunReport.ofResponse, extractVerdicts, Option.getD_some, forged]
  rfl

end PrintedVerdict

end HarnessSynthesis
