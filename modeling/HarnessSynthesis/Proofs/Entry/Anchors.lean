/-
# Candidates in their source

Candidates are looked for in the stripped source, by several scanners that may hit one declaration
more than once, and their offsets are used to cut the source itself. That is safe: the hits are
merged into one list in which every place stands once, and a name and the first character of a type
are not what a comment leaves behind, so at their places the source is as it was searched.
-/

import HarnessSynthesis.Proofs.Entry.LackingStatic
import HarnessSynthesis.Proofs.Entry.Ranking
import HarnessSynthesis.Proofs.Entry.Reports

namespace HarnessSynthesis

open Source
open Text (isBlank)

/-! ## One list of all hits -/

section Repetitions

variable {α : Type} {f : α → Nat}

/-- Of everything that is left out something alike is kept. -/
theorem exists_mem_eraseRepsBy {list : List α} {c : α} (found : c ∈ list) :
    ∃ d ∈ list.eraseRepsBy fun a b => f a == f b, f d = f c := by
  cases list with
  | nil => cases found
  | cons a rest =>
    induction rest generalizing a c with
    | nil => exact ⟨a, List.mem_singleton_self a, by rw [List.mem_singleton.1 found]⟩
    | cons b rest ih =>
      rw [eraseRepsBy_cons_cons]
      split
      · rename_i same
        have alike : f a = f b := by simpa using same
        rcases List.mem_cons.1 found with rfl | behind
        · exact ih _ List.mem_cons_self
        · rcases List.mem_cons.1 behind with rfl | later
          · obtain ⟨d, kept, eq⟩ := ih a List.mem_cons_self
            exact ⟨d, kept, eq.trans alike⟩
          · exact ih _ (List.mem_cons_of_mem a later)
      · rcases List.mem_cons.1 found with rfl | behind
        · exact ⟨c, List.mem_cons_self, rfl⟩
        · obtain ⟨d, kept, eq⟩ := ih _ behind
          exact ⟨d, List.mem_cons_of_mem a kept, eq⟩

end Repetitions

namespace Candidate

theorem map_offset_arrange (found : List Candidate) :
    (arrange found).map offset = ((found.mergeSort fun a b => a.offset ≤ b.offset).eraseRepsBy
      fun a b => a.offset == b.offset).map offset := by
  rw [arrange, List.map_map]
  conv_rhs => rw [← List.zipIdx_map_fst 0 (List.eraseRepsBy _ _), List.map_map]
  rfl

/-- An arranged candidate is numbered by its position. -/
theorem order_of_getElem?_arrange {found : List Candidate} {i : Nat} {c : Candidate}
    (place : (arrange found)[i]? = some c) : c.order = i := by
  rw [arrange, List.getElem?_map, List.getElem?_zipIdx] at place
  obtain ⟨⟨d, j⟩, counted, rfl⟩ := Option.map_eq_some_iff.1 place
  obtain ⟨d', -, same⟩ := Option.map_eq_some_iff.1 counted
  obtain ⟨rfl, rfl⟩ := Prod.mk.inj same
  exact Nat.zero_add i

/-- No place at which something was found is left out. -/
theorem exists_mem_arrange {found : List Candidate} {d : Candidate} (mem : d ∈ found) :
    ∃ c ∈ arrange found, c.offset = d.offset := by
  have sorted : d ∈ found.mergeSort fun a b => a.offset ≤ b.offset := List.mem_mergeSort.2 mem
  obtain ⟨kept, isKept, same⟩ := exists_mem_eraseRepsBy (f := offset) sorted
  have listed := List.mem_map_of_mem (f := offset) isKept
  rw [← map_offset_arrange] at listed
  obtain ⟨c, arranged, offset⟩ := List.mem_map.1 listed
  exact ⟨c, arranged, offset.trans same⟩

end Candidate

/-! ## Places -/

/-- A word that is visible in a stripped text stands in its source behind as many octets. By
induction on the word from its end: each character brings its place, and the places of one source
fit together. -/
theorem exists_of_stripFrom_eq_append {l : Language} {region : Region}
    {source front word back : Text} (nonempty : word ≠ []) (visible : ∀ c ∈ word, ¬ IsBlanking c)
    (stripped : stripFrom l region source = front ++ word ++ back) :
    ∃ before rest, source = before ++ word ++ rest ∧ before.octets = front.octets := by
  induction word using List.reverseRecOn generalizing back with
  | nil => exact absurd rfl nonempty
  | append_singleton word c ih =>
    rw [List.forall_mem_append, List.forall_mem_singleton] at visible
    rw [← List.append_assoc, List.append_assoc, List.singleton_append] at stripped
    obtain ⟨before, rest, whole, size, -⟩ := exists_of_stripFrom_eq stripped visible.2
    by_cases single : word = []
    · subst single
      rw [List.append_nil] at size
      refine ⟨before, rest, ?_, size⟩
      rw [whole, List.nil_append, List.append_assoc, List.singleton_append]
    · obtain ⟨before', rest', whole', size'⟩ := ih single visible.1 stripped
      have same : (before' ++ word).octets = before.octets := by
        rw [size, Text.octets_append, Text.octets_append, size']
      obtain ⟨rfl, rfl⟩ := TypedSource.append_inj_of_octets (whole'.symm.trans whole) same
      refine ⟨before', rest, ?_, size'⟩
      rw [whole, List.append_assoc, List.append_assoc, List.append_assoc, List.singleton_append]

namespace Candidate

/-- Where a candidate stands in a stripped source. -/
structure StandsIn (t : Text) (c : Candidate) : Prop where
  name : ∃ before rest : Text, t = before ++ (c.name ++ rest) ∧ before.octets = c.offset
  visible : c.name ≠ [] ∧ ∀ d ∈ c.name, ¬ IsBlanking d
  type : ∃ front d back, t = front ++ d :: back ∧ Text.octets front = c.typeOffset ∧ ¬ IsBlanking d
  typeOffset_le : c.typeOffset ≤ c.offset

/-- Whether a candidate's offsets are places of a source: at its offset the source has its name, and
at the offset of its type, which is not behind it, the source can be cut. -/
structure Anchored (source : Text) (c : Candidate) : Prop where
  name : source.slice c.offset (c.offset + c.name.octets) = .ok c.name
  typeOffset_le : c.typeOffset ≤ c.offset
  type : source.IsBoundary c.typeOffset

/-- A place of a name without blanks is a place of the declaration. -/
theorem standsIn_of {t before name rest : Text} (whole : t = before ++ (name ++ rest))
    (visible : name ≠ [] ∧ ∀ d ∈ name, ¬ IsBlanking d) (arguments : Text) (returnType : Option Text)
    (depth : Nat) : (of before name arguments returnType depth).StandsIn t where
  name := ⟨before, rest, whole, rfl⟩
  visible := visible
  type := by
    obtain ⟨d, more, rfl⟩ := List.exists_cons_of_ne_nil visible.1
    exact ⟨before, d, more ++ rest, whole, rfl, visible.2 d List.mem_cons_self⟩
  typeOffset_le := Nat.le_refl _

/-- What stands in the stripped source stands in the source. -/
theorem StandsIn.anchored {l : Language} {source : Text} {c : Candidate}
    (stands : c.StandsIn (stripComments l source)) : c.Anchored source where
  name := by
    obtain ⟨front, back, stripped, size⟩ := stands.name
    rw [← List.append_assoc] at stripped
    obtain ⟨before, rest, whole, same⟩ :=
      exists_of_stripFrom_eq_append stands.visible.1 stands.visible.2 stripped
    rw [whole, ← size, ← same, ← Text.octets_append]
    exact Text.slice_append before c.name rest
  typeOffset_le := stands.typeOffset_le
  type := by
    obtain ⟨front, d, back, stripped, size, visible⟩ := stands.type
    obtain ⟨before, rest, whole, same, -⟩ := exists_of_stripFrom_eq stripped visible
    exact ⟨before, d :: rest, whole, same.trans size⟩

theorem StandsIn.renumber {t : Text} {c : Candidate} (stands : c.StandsIn t) (n : Nat) :
    ({ c with order := n } : Candidate).StandsIn t :=
  ⟨stands.name, stands.visible, stands.type, stands.typeOffset_le⟩

end Candidate

/-! ## Names -/

/-- A word character is not what a comment leaves. -/
theorem not_isBlanking_of_isWordChar {c : Char} (word : Text.isWordChar c = true) :
    ¬ IsBlanking c := by
  rintro (rfl | rfl) <;> exact absurd word (by decide)

theorem visible_of_isName {name : Text} (named : IsName Text.isNameStart Text.isWordChar name) :
    name ≠ [] ∧ ∀ d ∈ name, ¬ IsBlanking d := by
  refine ⟨?_, fun d mem => not_isBlanking_of_isWordChar (isWordChar_of_isName named d mem)⟩
  obtain ⟨c, more, rfl, -⟩ := named
  exact List.cons_ne_nil c more

namespace TypescriptSource

theorem visible_of_isName {name : Text} (named : IsName isNameStart isNamePart name) :
    name ≠ [] ∧ ∀ d ∈ name, ¬ IsBlanking d := by
  constructor
  · obtain ⟨c, more, rfl, -⟩ := named
    exact List.cons_ne_nil c more
  · intro d mem blanking
    have noBlank := isBlank_of_isName named d mem
    rcases blanking with rfl | rfl <;> exact absurd noBlank (by decide)

/-- Whether what a scanner reads is named. -/
def Names (scan : Scanner Named) : Prop :=
  ∀ {previous : Option Char} {t behind : Text} {named : Named},
    scan previous t = some (named, behind) → IsName isNameStart isNamePart named.name

theorem names_function? : Names function? := fun h => (exists_of_function? h).2.1

theorem isName_of_boundName? {previous : Option Char} {t atName name rest : Text}
    (h : boundName? previous t = some (atName, name, rest)) :
    IsName isNameStart isNamePart name := by
  obtain ⟨-, rest', read, -⟩ := exists_of_boundName? h
  exact isName_of_name? read

theorem names_binding? : Names binding? := by
  intro previous t behind named h
  obtain ⟨⟨atName, name, rest⟩, bound, h⟩ := Option.bind_eq_some_iff.1 h
  obtain ⟨annotated, -, h⟩ := Option.bind_eq_some_iff.1 h
  obtain ⟨value, -, h⟩ := Option.bind_eq_some_iff.1 h
  obtain ⟨behind', -, h⟩ := Option.bind_eq_some_iff.1 h
  cases h
  exact isName_of_boundName? bound

theorem isName_of_singleArrow? {previous : Option Char} {t behind : Text} {found : Named × Text}
    (h : singleArrow? previous t = some (found, behind)) :
    IsName isNameStart isNamePart found.1.name := by
  obtain ⟨⟨atName, name, rest⟩, bound, h⟩ := Option.bind_eq_some_iff.1 h
  obtain ⟨value, -, h⟩ := Option.bind_eq_some_iff.1 h
  obtain ⟨⟨parameter, behind'⟩, -, h⟩ := Option.bind_eq_some_iff.1 h
  cases h
  exact isName_of_boundName? bound

theorem isName_of_methodName? {whole t : Text} {named : Named}
    (h : methodName? whole t = some named) : IsName isNameStart isNamePart named.name := by
  obtain ⟨⟨name, rest⟩, read, h⟩ := Option.bind_eq_some_iff.1 h
  obtain ⟨behind, -, h⟩ := Option.bind_eq_some_iff.1 h
  cases h
  exact isName_of_name? read

theorem isName_of_methodFrom? {whole t : Text} {fuel : Nat} {named : Named}
    (h : methodFrom? whole fuel t = some named) : IsName isNameStart isNamePart named.name := by
  induction fuel generalizing t with
  | zero => exact isName_of_methodName? h
  | succ fuel ih =>
    rw [methodFrom?] at h
    split at h
    · rcases (Option.orElse_eq_some _ _ _).1 h with h | ⟨-, h⟩
      · exact ih h
      · exact isName_of_methodName? h
    · exact isName_of_methodName? h

theorem names_method? : Names method? := by
  intro previous t behind named h
  obtain ⟨-, -, h⟩ := Option.bind_eq_some_iff.1 h
  obtain ⟨named', read, h⟩ := Option.bind_eq_some_iff.1 h
  cases h
  exact isName_of_methodFrom? read

/-! ## Candidates of TypeScript -/

variable {t : Text}

theorem standsIn_of_declared? {scan : Scanner Named} (reads : ReadsNames scan) (names : Names scan)
    {hit : Hit Named} (found : hit ∈ occurrences scan t) {type? : Text → Option (Option Text)}
    {c : Candidate} (h : declared? hit type? = some c) : c.StandsIn t := by
  obtain ⟨gap, whole⟩ := reads.exists_of_mem found
  obtain ⟨rest, behind, -, read⟩ := exists_of_mem_occurrences reads.takes found
  obtain ⟨⟨arguments, after⟩, -, h⟩ := Option.bind_eq_some_iff.1 h
  obtain ⟨type, -, h⟩ := Option.bind_eq_some_iff.1 h
  cases h
  rw [List.append_assoc] at whole
  exact Candidate.standsIn_of whole (visible_of_isName (names read)) _ _ _

/-- Whichever of the scanners hits, a candidate stands where it was found. -/
theorem standsIn_of_mem_candidates {c : Candidate} (h : c ∈ candidates t) :
    c.StandsIn t ∧ Candidate.isExcluded c.name = false := by
  rw [candidates, List.mem_filter, List.mem_append, List.mem_append, List.mem_append] at h
  obtain ⟨h, ordinary⟩ := h
  refine ⟨?_, by simpa using ordinary⟩
  rcases h with ((function | binding) | arrow) | method
  · obtain ⟨hit, found, h⟩ := List.mem_filterMap.1 function
    exact standsIn_of_declared? readsNames_function? names_function? found h
  · obtain ⟨hit, found, h⟩ := List.mem_filterMap.1 binding
    exact standsIn_of_declared? readsNames_binding? names_binding? found h
  · obtain ⟨hit, found, rfl⟩ := List.mem_map.1 arrow
    obtain ⟨rest, behind, whole, read⟩ := exists_of_mem_occurrences takes_singleArrow? found
    obtain ⟨-, ⟨rest', place⟩, -⟩ := exists_of_singleArrow? read
    rw [place, ← List.append_assoc] at whole
    exact Candidate.standsIn_of whole (visible_of_isName (isName_of_singleArrow? read)) _ _ _
  · obtain ⟨hit, found, h⟩ := List.mem_filterMap.1 method
    exact standsIn_of_declared? readsNames_method? names_method? found h

end TypescriptSource

/-! ## Candidates of the other languages -/

namespace PythonSource

theorem isName_of_definition? {previous : Option Char} {t behind : Text}
    {named : TypescriptSource.Named} (h : definition? previous t = some (named, behind)) :
    IsName Text.isNameStart Text.isWordChar named.name := by
  obtain ⟨-, -, h⟩ := Option.bind_eq_some_iff.1 h
  obtain ⟨rest, -, h⟩ := Option.bind_eq_some_iff.1 h
  obtain ⟨atName, -, h⟩ := Option.bind_eq_some_iff.1 h
  obtain ⟨⟨name, rest'⟩, read, h⟩ := Option.bind_eq_some_iff.1 h
  obtain ⟨behind', -, h⟩ := Option.bind_eq_some_iff.1 h
  cases h
  exact isName_of_name? read

theorem standsIn_of_mem_candidates {t : Text} {c : Candidate} (h : c ∈ candidates t) :
    c.StandsIn t := by
  rw [candidates_eq] at h
  obtain ⟨hit, found, h⟩ := List.mem_filterMap.1 h
  obtain ⟨gap, whole⟩ := TypescriptSource.readsNames_definition?.exists_of_mem found
  obtain ⟨rest, behind, -, read⟩ :=
    exists_of_mem_occurrences TypescriptSource.readsNames_definition?.takes found
  rw [declared?] at h
  obtain ⟨-, h⟩ := Option.ite_none_left_eq_some.1 h
  obtain ⟨p, -, rfl⟩ := Option.map_eq_some_iff.1 h
  rw [List.append_assoc] at whole
  exact Candidate.standsIn_of whole (visible_of_isName (isName_of_definition? read)) _ _ _

end PythonSource

namespace TypedSource

theorem offset_of_declared? {l : Language} {hit : Hit (Text × Text)} {c : Candidate}
    (h : declared? l hit = some c) : c.offset = hit.before.octets := by
  obtain ⟨-, -, -, -, -, -, -, rfl⟩ := eq_of_declared? h
  rfl

/-- A candidate stands behind its header, which ends where the type begins. -/
theorem standsIn_of_mem_candidates {l : Language} {t : Text} {c : Candidate}
    (h : c ∈ candidates l t) : c.StandsIn t ∧ Candidate.isExcluded c.name = false := by
  obtain ⟨hit, found, declared⟩ := List.mem_filterMap.1 h
  obtain ⟨rest, behind, whole, read⟩ := exists_of_mem_occurrences readsTo_callable?.takes found
  obtain ⟨-, ⟨gap, -, place⟩, named⟩ := exists_of_callable? read
  obtain ⟨-, -, header, ordinary, -, -, readHeader, name, -, -, typeOffset⟩ :=
    exists_of_declared? declared
  obtain ⟨d, more, before, starts⟩ := exists_of_header? readHeader
  rw [← name] at ordinary
  refine ⟨⟨⟨hit.before, gap ++ '(' :: behind, ?_, (offset_of_declared? declared).symm⟩, ?_,
    ⟨header.before, d, more ++ rest, ?_, typeOffset.symm, StartsType.visible starts⟩, ?_⟩, ordinary⟩
  · rw [whole, place, name]
  · rw [name]
    exact visible_of_isName named
  · rw [whole, before, List.append_assoc, List.cons_append]
  · rw [typeOffset, offset_of_declared? declared, before, Text.octets_append]
    exact Nat.le_add_right _ _

end TypedSource

/-! ## All candidates -/

/-- What the scanners of a language find in a stripped source, in whatever order and however
often. -/
def declarations (l : Language) (stripped : Text) : List Candidate :=
  match l with
  | .typescript => TypescriptSource.candidates stripped
  | .python => PythonSource.candidates stripped
  | .java => TypedSource.candidates .java stripped
  | .cpp => TypedSource.candidates .cpp stripped

theorem findCandidates_eq (l : Language) (source : Text) :
    findCandidates l source = Candidate.arrange (declarations l (stripComments l source)) := by
  cases l <;> rfl

theorem standsIn_of_mem_declarations {l : Language} {t : Text} {c : Candidate}
    (h : c ∈ declarations l t) :
    c.StandsIn t ∧ (l ≠ .python → Candidate.isExcluded c.name = false) := by
  cases l with
  | typescript => exact (TypescriptSource.standsIn_of_mem_candidates h).imp_right fun h _ => h
  | python => exact ⟨PythonSource.standsIn_of_mem_candidates h, fun other => absurd rfl other⟩
  | java => exact (TypedSource.standsIn_of_mem_candidates h).imp_right fun h _ => h
  | cpp => exact (TypedSource.standsIn_of_mem_candidates h).imp_right fun h _ => h

/-- What a name is not when it is not excluded. -/
theorem ordinary_of_isExcluded_eq_false {name : Text}
    (ordinary : Candidate.isExcluded name = false) :
    name ∉ Candidate.controlWords ∧ name ∉ (["main", "Main", "Solution"] : List Text) ∧
      ∀ k : Composite, name ≠ k.typeName := by
  simp only [Candidate.isExcluded, Bool.or_eq_false_iff, decide_eq_false_iff_not] at ordinary
  obtain ⟨⟨noControl, noMain⟩, noStructure⟩ := ordinary
  refine ⟨noControl, noMain, ?_⟩
  rintro k rfl
  cases k <;> exact absurd noStructure (by decide)

/-- The candidates of a source stand one behind the other and are numbered in that order. No place
at which a scanner found a declaration is left out, and none is listed twice. Each candidate has its
name at its offset in the source, comments and all, and at the offset of its type, which is not
behind the name, the source can be cut. Outside of Python no candidate is a word of control flow, a
name of the harness or a structure. -/
theorem findCandidates_anchored (l : Language) (source : Text) :
    (findCandidates l source).Pairwise (fun a b => a.offset < b.offset) ∧
    (∀ (i : Nat) (c : Candidate), (findCandidates l source)[i]? = some c → c.order = i) ∧
    (∀ d ∈ declarations l (stripComments l source),
      ∃ c ∈ findCandidates l source, c.offset = d.offset) ∧
    ∀ c ∈ findCandidates l source,
      c.Anchored source ∧
      (l ≠ .python → c.name ∉ Candidate.controlWords ∧
        c.name ∉ (["main", "Main", "Solution"] : List Text) ∧
        ∀ k : Composite, c.name ≠ k.typeName) := by
  rw [findCandidates_eq]
  refine ⟨Candidate.pairwise_offset_arrange _,
    fun _ _ place => Candidate.order_of_getElem?_arrange place,
    fun _ found => Candidate.exists_mem_arrange found, fun c mem => ?_⟩
  obtain ⟨d, found, renumbered⟩ := Candidate.exists_of_mem_arrange mem
  obtain ⟨stands, ordinary⟩ := standsIn_of_mem_declarations found
  rw [renumbered]
  exact ⟨(stands.renumber c.order).anchored,
    fun other => ordinary_of_isExcluded_eq_false (ordinary other)⟩

end HarnessSynthesis
