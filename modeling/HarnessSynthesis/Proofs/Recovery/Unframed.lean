/-
# Recovering what is not framed

Output without a start mark is scanned for objects that start like a verdict. Every such object is
found, whatever its strings, members and inner objects hold, and nothing else is: what lies inside
an object is passed over with it, and the text between two objects may hold braces, quotes and
backslashes in any number. It may even end with a part of the signature, since the signature has no
brace behind its first one and so cannot reach into the object that follows.
-/

import HarnessSynthesis.Proofs.Recovery.Truncated

namespace HarnessSynthesis

open Json Recovery

namespace Recovery

/-- Output without a start mark is not framed. -/
theorem framedItems?_eq_none {raw : Text} (noMark : Text.contains startMark raw = false) :
    framedItems? raw = none := by
  have missing : Text.cut? startMark raw = none :=
    Option.isNone_iff_eq_none.1 (Option.isSome_eq_false_iff.1 noMark)
  refine framedItems?_of_framed?_eq_none ?_
  simp only [framed?, missing, Option.bind_eq_bind, Option.bind_none]

end Recovery

/-- A document that the scan takes: an object whose text starts with the signature, of integral
numbers and not nested too deeply. Its members stand in any order. -/
structure StatusObject where
  members : List (Option Text × Node)
  integral : Node.membersIntegral members = true
  starts : signature <+: (Node.object members).write
  shallow : (Node.object members).depth ≤ maxLevels

namespace StatusObject

variable (o : StatusObject)

def node : Node := .object o.members

def text : Text := o.node.write

/-- The value of the object. -/
def value : Value := (o.node.toValue? maxLevels).get (Node.isSome_toValue? o.integral o.shallow)

theorem toValue?_node : o.node.toValue? maxLevels = some o.value :=
  (Option.some_get _).symm

theorem text_eq_cons : ∃ t, o.text = '{' :: t :=
  ⟨Node.writeMembers o.members ++ ['}'], rfl⟩

/-- The scan takes the object and goes on behind it. -/
theorem scan_text (t : Text) : scan (o.text ++ t) = o.value :: scan t := by
  have starts : Node.startsLikeVerdict o.members = true := by
    have front := o.starts
    rw [← List.append_nil (Node.object o.members).write] at front
    exact (signature_isPrefix_iff o.integral []).1 front
  rw [text, node, scan_write_object o.integral starts, ← node, o.toValue?_node]
  rfl

/-! ## Objects among other text -/

/-- Objects with a text behind each, and one in front of all. -/
def scattered (lead : Text) (os : List (StatusObject × Text)) : Text :=
  lead ++ os.flatMap fun o => o.1.text ++ o.2

/-- A text without the signature is passed over in front of an object. -/
theorem scan_append_text {lead : Text} (noVerdict : ¬ signature <:+: lead) (t : Text) :
    scan (lead ++ (o.text ++ t)) = scan (o.text ++ t) := by
  obtain ⟨rest, opening⟩ := o.text_eq_cons
  rw [opening, List.cons_append, scan_append_cons noVerdict (by decide)]

theorem scan_scattered {lead : Text} {os : List (StatusObject × Text)}
    (noVerdict : ¬ signature <:+: lead) (noVerdicts : ∀ o ∈ os, ¬ signature <:+: o.2) :
    scan (scattered lead os) = os.map fun o => o.1.value := by
  induction os generalizing lead with
  | nil => rw [scattered, List.flatMap_nil, List.append_nil, scan_eq_nil noVerdict, List.map_nil]
  | cons o os ih =>
    rw [List.forall_mem_cons] at noVerdicts
    have behind := ih noVerdicts.1 noVerdicts.2
    rw [scattered, List.flatMap_cons, List.append_assoc o.1.text, scan_append_text _ noVerdict,
      scan_text, ← scattered, behind, List.map_cons]

/-- In output without a start mark exactly the objects that start like a verdict are found, in their
order, among any other text that does not hold the signature. Of these the verdicts are those that
decode as one. -/
theorem extract_scattered {lead : Text} {os : List (StatusObject × Text)} (nonempty : os ≠ [])
    (noMark : Text.contains startMark (scattered lead os) = false)
    (noVerdict : Text.contains signature lead = false)
    (noVerdicts : ∀ o ∈ os, Text.contains signature o.2 = false) :
    extract (scattered lead os) = .ok (os.map fun o => o.1.value) ∧
      extractVerdicts (scattered lead os) =
        .ok (os.filterMap fun o => (Verdict.decoder.decodeValue o.1.value).toOption) := by
  have found : extract (scattered lead os) = .ok (os.map fun o => o.1.value) := by
    rw [extract_of_framedItems?_eq_none (framedItems?_eq_none noMark),
      scan_scattered (Text.not_isInfix_of_contains_eq_false noVerdict)
        fun o mem => Text.not_isInfix_of_contains_eq_false (noVerdicts o mem)]
    cases os with
    | nil => exact absurd rfl nonempty
    | cons o os => rfl
  refine ⟨found, ?_⟩
  rw [extractVerdicts, found, Except.map, List.filterMap_map]
  rfl

/-- A verdict whose error holds a closing brace, a quote and a signature. -/
def crash : StatusObject where
  members := [(some "status".toList, .text "error".toList),
    (some "error".toList, .text ("\x7d\"\\".toList ++ signature))]
  integral := by decide
  starts := by decide
  shallow := by decide

/-- An object that starts like a verdict, with another one inside, and is none. -/
def strange : StatusObject where
  members := [(some "status".toList, .object [(some "status".toList, .null)])]
  integral := by decide
  starts := by decide
  shallow := by decide

/-- The noise in front ends with a part of the signature. Of the two objects one is a verdict. -/
theorem extract_scattered_crash :
    let output := scattered "\x7b\x7b \"\\ \x7b\"status\"".toList
      [(crash, "\x7b\"status\"".toList), (strange, "\x7d\x7d\n".toList)]
    extract output = .ok [crash.value, strange.value] ∧
      extractVerdicts output =
        .ok [⟨.error, .null, .null, Binary64.zero false, none,
          some ("\x7d\"\\".toList ++ signature)⟩] :=
  extract_scattered (List.cons_ne_nil _ _) (by decide) (by decide) (by decide)

end StatusObject

end HarnessSynthesis
