/-
# Verdicts from their print

A printed verdict decodes as what it was printed for. What is decoded is the JSON value, in which
the members stand in the order of their names and not in that of the print, with logs and error only
where there are some. So a list of verdicts that is printed between the marks is decoded as these
verdicts.
-/

import Mathlib.Data.List.Basic
import HarnessSynthesis.Proofs.Json.Records
import HarnessSynthesis.Proofs.Recovery.Framed

namespace HarnessSynthesis

open Json Recovery

namespace PrintedVerdict

variable (v : PrintedVerdict)

/-! ## One verdict -/

/-- The verdict that a printed one is read as. -/
def verdict : Verdict :=
  ⟨v.status, v.expected, v.actual, Binary64.ofInt v.time, v.logs, v.error⟩

/-- The members of a verdict in the order of their names. -/
def sortedMembers : List (Text × Value) :=
  [(("actual" : Text), v.actual)] ++
    (v.error.map fun s => (("error" : Text), Value.string s)).toList ++
      [(("expected" : Text), v.expected)] ++
        (v.logs.map fun s => (("logs" : Text), Value.string s)).toList ++
          [(("status" : Text), Value.string v.status.name), (("time" : Text), Value.int v.time)]

theorem value_eq_object : v.value = .object v.sortedMembers := by
  rw [value, members, sortedMembers]
  cases v.logs <;> cases v.error <;> rfl

/-- The members of a verdict as they are decoded. -/
def decodedMembers : List (Text × Node) :=
  v.sortedMembers.map fun m => (m.1, .ofValue m.2)

theorem ofValue_value : Node.ofValue v.value = .object (Shape.written v.decodedMembers) := by
  rw [value_eq_object, Node.ofValue, decodedMembers]
  induction v.sortedMembers with
  | nil => rfl
  | cons m rest ih => rw [Node.ofMembers, Node.object.inj ih]; rfl

/-- The names of all members that a verdict may have. -/
def memberNames : List Text :=
  ["actual", "error", "expected", "logs", "status", "time"]

theorem names_decodedMembers : (v.decodedMembers.map Prod.fst).Sublist memberNames := by
  rw [decodedMembers, sortedMembers, memberNames]
  cases v.logs <;> cases v.error <;> simp

theorem distinct_decodedMembers : (v.decodedMembers.map Prod.fst).Nodup :=
  List.Nodup.sublist v.names_decodedMembers (by decide)

/-- A value that is printed inside a verdict is decoded there. -/
theorem decode_printable {w : Value} (printable : w.IsPrintable) :
    Decoder.value 126 (.ofValue w) = .ok w := by
  have shallow : w.depth ≤ 126 := Nat.le_of_succ_le_succ printable.shallow
  rw [Decoder.value, Value.toValue?_ofValue printable.ordered shallow]

theorem decode_status (s : Status) : Decoder.oneOf Status.ofName? 126 (.text s.name) = .ok s := by
  cases s <;> rfl

/-- A text that a verdict may have is read as it is written, and as none where it is left out. -/
theorem readsField_text? {name : Text} {written : Option Text}
    (given : ∀ s, written = some s → (name, .string s) ∈ v.sortedMembers)
    (absent : written = none → name ∉ v.decodedMembers.map Prod.fst) :
    Shape.ReadsField 126 name (Decoder.nullable Decoder.text) (.default none) v.decodedMembers
      written := by
  cases written with
  | none => exact Or.inr ⟨absent rfl, rfl⟩
  | some s => exact Or.inl ⟨.text s, List.mem_map_of_mem (given s rfl), rfl⟩

/-- A printed verdict decodes as what it was printed for. -/
theorem decodeValue_value : Verdict.decoder.decodeValue v.value = .ok v.verdict := by
  have member (m : Text × Value) (found : m ∈ v.sortedMembers) :
      (m.1, Node.ofValue m.2) ∈ v.decodedMembers := List.mem_map_of_mem found
  rw [Decoder.decodeValue, ofValue_value]
  refine congrArg (Except.map _) (Shape.Reads.decoder_object
    (r := (v.status, v.expected, v.actual, Binary64.ofInt v.time, v.logs, v.error, ()))
    ?reads ?fields v.distinct_decodedMembers ?known)
  case reads =>
    refine ⟨Or.inl ⟨_, member ("status", .string v.status.name) ?_, decode_status v.status⟩,
      Or.inl ⟨_, member ("expected", v.expected) ?_, decode_printable v.expected_isPrintable⟩,
      Or.inl ⟨_, member ("actual", v.actual) ?_, decode_printable v.actual_isPrintable⟩,
      Or.inl ⟨_, member ("time", .int v.time) ?_, rfl⟩, v.readsField_text? ?_ ?_,
      v.readsField_text? ?_ ?_, trivial⟩
    all_goals simp +contextual [decodedMembers, sortedMembers]
  case fields =>
    simp only [Shape.names]
    decide
  case known =>
    intro m found
    have named := v.names_decodedMembers.subset (List.mem_map_of_mem (f := Prod.fst) found)
    have fields : memberNames ⊆
        ["status".toList, "expected".toList, "actual".toList, "time".toList, "logs".toList,
          "error".toList] := by decide
    exact Or.inl (fields named)

/-! ## A framed list -/

/-- With nothing around it, a framed list is recovered as its values. -/
theorem extract_framed_alone (vs : List PrintedVerdict) :
    extract (framed vs) = .ok (vs.map value) := by
  have noNoise : framed vs = [] ++ framed vs ++ [] := (List.append_nil _).symm
  have noMark : Text.contains startMark [] = false := by decide
  have noVerdict : Text.contains signature [] = false := by decide
  rw [noNoise]
  rcases framedItems?_framed (q := []) vs (Or.inl rfl) noMark with missing | found
  · cases vs with
    | nil =>
      rw [framedItems?_framed_nil (Or.inl rfl) noMark] at missing
      cases missing
    | cons v vs =>
      rw [extract, missing, scan_framed (v :: vs) noVerdict noVerdict]
      rfl
  · rw [extract, found]

/-- A framed list is decoded as the verdicts it was printed for. -/
theorem extractVerdicts_framed (vs : List PrintedVerdict) :
    extractVerdicts (framed vs) = .ok (vs.map verdict) := by
  have decoded : (vs.map value).filterMap
      (fun item => (Verdict.decoder.decodeValue item).toOption) = vs.map verdict := by
    rw [List.filterMap_map, List.filterMap_eq_map_iff_forall_eq_some]
    intro v _
    rw [Function.comp_apply, v.decodeValue_value]
    rfl
  rw [extractVerdicts, extract_framed_alone, Except.map, decoded]

end PrintedVerdict

end HarnessSynthesis
