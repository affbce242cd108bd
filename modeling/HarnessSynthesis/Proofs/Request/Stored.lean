/-
# Stored problems and requests

A problem is stored as a text and a request arrives as one, so what a record is written as has to
bring back the record. `Decoder.Restores` says this of one document and one decoder, for all levels
of nesting that the document needs. It holds of scalars and of values; lists, options and records
inherit it from their parts. A record is followed field by field: its shape and what it is written
as list the same names in the same order, except that the last fields may be left out where they are
what their absence means.
-/

import HarnessSynthesis.Request
import HarnessSynthesis.Proofs.Json.Records
import HarnessSynthesis.Proofs.Json.RoundTrip

namespace HarnessSynthesis

namespace Json

/-! ## Documents and their parts -/

namespace Node

theorem itemsIntegral_iff {items : List Node} :
    itemsIntegral items = true ↔ ∀ n ∈ items, n.isIntegral = true := by
  induction items with
  | nil => simp [itemsIntegral]
  | cons item rest ih => rw [itemsIntegral_cons, ih, List.forall_mem_cons]

theorem itemsDepth_le_iff {items : List Node} {levels : Nat} :
    itemsDepth items ≤ levels ↔ ∀ n ∈ items, n.depth ≤ levels := by
  induction items with
  | nil => simp [itemsDepth]
  | cons item rest ih => rw [itemsDepth, Nat.max_le, ih, List.forall_mem_cons]

theorem isIntegral_record {members : List (Text × Node)} :
    (record members).isIntegral = true ↔ ∀ m ∈ members, m.2.isIntegral = true := by
  rw [record, isIntegral]
  induction members with
  | nil => simp [membersIntegral]
  | cons m rest ih =>
    rw [List.map_cons, membersIntegral_cons, ih, List.forall_mem_cons]
    exact and_iff_right ⟨m.1, rfl⟩

theorem membersDepth_written_le_iff {members : List (Text × Node)} {levels : Nat} :
    membersDepth (Shape.written members) ≤ levels ↔ ∀ m ∈ members, m.2.depth ≤ levels := by
  induction members with
  | nil => simp [Shape.written, membersDepth]
  | cons m rest ih =>
    rw [List.forall_mem_cons, ← ih, ← Nat.max_le]
    rfl

mutual

/-- A value is written out as deeply nested as it is. -/
theorem depth_ofValue : ∀ v : Value, (ofValue v).depth = v.depth
  | .null => rfl
  | .bool _ => rfl
  | .number _ => rfl
  | .string _ => rfl
  | .array items => by rw [ofValue, depth, itemsDepth_ofItems items, Value.depth]
  | .object members => by rw [ofValue, depth, membersDepth_ofMembers members, Value.depth]

theorem itemsDepth_ofItems : ∀ items : List Value,
    itemsDepth (ofItems items) = Value.itemsDepth items
  | [] => rfl
  | v :: rest => by
    rw [ofItems, itemsDepth, depth_ofValue v, itemsDepth_ofItems rest, Value.itemsDepth]

theorem membersDepth_ofMembers : ∀ members : List (Text × Value),
    membersDepth (ofMembers members) = Value.membersDepth members
  | [] => rfl
  | (_, v) :: rest => by
    rw [ofMembers, membersDepth, depth_ofValue v, membersDepth_ofMembers rest, Value.membersDepth]

end

end Node

/-- Whether a value is taken back from its text as it is: its numbers are integers and its members
stand in order. -/
structure Value.IsStorable (v : Value) : Prop where
  integral : v.isIntegral = true
  ordered : v.isOrdered = true

instance (v : Value) : Decidable v.IsStorable :=
  decidable_of_iff (v.isIntegral = true ∧ v.isOrdered = true)
    ⟨fun ⟨integral, ordered⟩ => ⟨integral, ordered⟩, fun ⟨integral, ordered⟩ => ⟨integral, ordered⟩⟩

/-! ## Decoders that take back what was written -/

namespace Decoder

/-- Whether a document is written without loss and decoded to something at every number of levels
that allows for its nesting. -/
structure Restores {α : Type} (decode : Decoder α) (n : Node) (a : α) : Prop where
  integral : n.isIntegral = true
  decoded : ∀ levels, n.depth ≤ levels → decode levels n = .ok a

variable {α β : Type} {decode : Decoder α} {encode : α → Node}

theorem restores_text (s : Text) : text.Restores (.text s) s :=
  ⟨rfl, fun _ _ => rfl⟩

theorem restores_bool (b : Bool) : bool.Restores (.bool b) b :=
  ⟨rfl, fun _ _ => rfl⟩

/-- A natural number that fits a word of 64 bits comes back as that word. -/
theorem restores_word {n : Nat} (fits : n ≤ Word.greatest 64) : (word 64).Restores (.int n) n where
  integral := by
    have least : Word.leastSigned 64 ≤ 0 := by decide
    have word : (Number.integer n).isWord = true := by
      rw [Number.isWord, Bool.and_eq_true, decide_eq_true_eq, decide_eq_true_eq]
      omega
    exact word
  decoded := fun _ _ => by
    have positive : (0 : Int) ≤ n := Int.natCast_nonneg n
    simp only [word, Node.int, Number.toUInt64?, if_pos positive, Int.toNat_natCast, if_pos fits]

theorem restores_value {v : Value} (storable : v.IsStorable) : value.Restores (.ofValue v) v where
  integral := storable.integral
  decoded := fun levels shallow => by
    rw [Node.depth_ofValue] at shallow
    rw [value, Value.toValue?_ofValue storable.ordered shallow]

theorem mapM_map_encode {levels : Nat} {items : List α}
    (each : ∀ a ∈ items, decode levels (encode a) = .ok a) :
    (items.map encode).mapM (decode levels) = .ok items := by
  induction items with
  | nil => rfl
  | cons a rest ih =>
    obtain ⟨first, others⟩ := List.forall_mem_cons.1 each
    rw [List.map_cons, List.mapM_cons, first, ih others]
    rfl

theorem restores_list {items : List α} (each : ∀ a ∈ items, decode.Restores (encode a) a) :
    (list decode).Restores (.array (items.map encode)) items where
  integral := by
    rw [Node.isIntegral, Node.itemsIntegral_iff, List.forall_mem_map]
    exact fun a found => (each a found).integral
  decoded := fun levels shallow => by
    rw [Node.depth] at shallow
    obtain ⟨below, rfl⟩ : ∃ below, levels = below + 1 := ⟨levels - 1, by omega⟩
    have flat := Node.itemsDepth_le_iff.1 (Nat.le_of_succ_le_succ shallow)
    rw [List.forall_mem_map] at flat
    exact mapM_map_encode fun a found => (each a found).decoded below (flat a found)

/-- What may be missing comes back when it is not written like what is missing. -/
theorem restores_nullable {given : Option α} (each : ∀ a ∈ given, decode.Restores (encode a) a)
    (apart : ∀ a, encode a ≠ .null) :
    (nullable decode).Restores (Node.ofOption encode given) given := by
  cases given with
  | none => exact ⟨rfl, fun _ _ => rfl⟩
  | some a =>
    obtain ⟨integral, decoded⟩ := each a rfl
    refine ⟨integral, fun levels shallow => ?_⟩
    have some : nullable decode levels (encode a) = (decode levels (encode a)).map some := by
      rw [nullable]
      exact apart a
    rw [Node.ofOption, some, decoded levels shallow]
    rfl

theorem Restores.map {n : Node} {a : α} (restores : decode.Restores n a) (f : α → β) :
    (decode.map f).Restores n (f a) :=
  ⟨restores.integral, fun levels shallow => by
    rw [Decoder.map, restores.decoded levels shallow, Except.map]⟩

/-- A document that a decoder restores is decoded from its text. -/
theorem Restores.decodeText_write {n : Node} {a : α} (restores : decode.Restores n a)
    (shallow : n.depth ≤ maxLevels) : decode.decodeText n.write = .ok a := by
  rw [decodeText, Node.read_write restores.integral]
  simp only [restores.decoded maxLevels shallow]
  rfl

end Decoder

/-! ## Records -/

namespace Shape

/-- Whether members bring the fields of a record, one after the other. The last fields may have no
member when they are what they are when absent. -/
def Restores : {σ ρ : Type} → Shape σ ρ → List (Text × Node) → ρ → Prop
  | _, _, .done, [], () => True
  | _, _, .done, _ :: _, () => False
  | _, _, .field name decode _ rest, m :: members, (a, r) =>
    m.1 = name ∧ decode.Restores m.2 a ∧ rest.Restores members r
  | _, _, .field _ _ absence rest, [], (a, r) => absence.inObject? = some a ∧ rest.Restores [] r

variable {σ ρ : Type} {s : Shape σ ρ} {members : List (Text × Node)} {r : ρ}

theorem Restores.names_isPrefix (restores : s.Restores members r) :
    members.map Prod.fst <+: s.names := by
  induction s generalizing members with
  | done =>
    cases members with
    | nil => exact List.nil_prefix
    | cons m rest => exact restores.elim
  | field name decode absence rest ih =>
    obtain ⟨a, r⟩ := r
    cases members with
    | nil => exact List.nil_prefix
    | cons m others =>
      obtain ⟨rfl, -, later⟩ := restores
      exact List.prefix_cons_inj _ |>.2 (ih later)

theorem Restores.integral (restores : s.Restores members r) :
    ∀ m ∈ members, m.2.isIntegral = true := by
  induction s generalizing members with
  | done =>
    cases members with
    | nil => exact List.forall_mem_nil _
    | cons m rest => exact restores.elim
  | field name decode absence rest ih =>
    obtain ⟨a, r⟩ := r
    cases members with
    | nil => exact List.forall_mem_nil _
    | cons m others =>
      obtain ⟨-, first, later⟩ := restores
      exact List.forall_mem_cons.2 ⟨first.integral, ih later⟩

/-- Members that bring the fields of a record are read as it, behind members of other names. The
induction is on the fields; a field is found at its member, or its name does not stand among those
in front, which are all there is. -/
theorem Restores.reads {levels : Nat} {front : List (Text × Node)}
    (restores : s.Restores members r) (shallow : ∀ m ∈ members, m.2.depth ≤ levels)
    (distinct : (front.map Prod.fst ++ s.names).Nodup) :
    s.Reads levels (front ++ members) r := by
  induction s generalizing front members with
  | done => trivial
  | field name decode absence rest ih =>
    obtain ⟨a, r⟩ := r
    rw [names] at distinct
    cases members with
    | nil =>
      obtain ⟨absent, later⟩ := restores
      have unnamed : name ∉ (front ++ []).map Prod.fst := by
        rw [List.append_nil]
        exact fun found => (List.nodup_append.1 distinct).2.2 name found name List.mem_cons_self rfl
      refine ⟨Or.inr ⟨unnamed, absent⟩, ih later (List.forall_mem_nil _) ?_⟩
      exact distinct.sublist ((List.Sublist.refl _).append (List.sublist_cons_self name rest.names))
    | cons m others =>
      obtain ⟨rfl, first, later⟩ := restores
      obtain ⟨flat, flatter⟩ := List.forall_mem_cons.1 shallow
      refine ⟨Or.inl ⟨m.2, List.mem_append_right front List.mem_cons_self,
        first.decoded levels flat⟩, ?_⟩
      rw [← List.singleton_append, ← List.append_assoc]
      refine ih later flatter ?_
      rw [List.map_append, List.append_assoc]
      exact distinct

/-- Written members that bring the fields of a record restore it. -/
theorem Restores.decoder (restores : s.Restores members r) (fields : s.names.Nodup) :
    s.decoder.Restores (.record members) r where
  integral := Node.isIntegral_record.2 restores.integral
  decoded := fun levels shallow => by
    have written : Node.record members = .object (written members) := rfl
    rw [written] at shallow ⊢
    rw [Node.depth] at shallow
    obtain ⟨below, rfl⟩ : ∃ below, levels = below + 1 := ⟨levels - 1, by omega⟩
    have flat := Node.membersDepth_written_le_iff.1 (Nat.le_of_succ_le_succ shallow)
    have named := restores.names_isPrefix
    have reads : s.Reads below ([] ++ members) r := restores.reads flat fields
    refine Reads.decoder_object reads fields
      (fields.sublist named.sublist) fun m found => Or.inl ?_
    exact named.subset (List.mem_map_of_mem found)

end Shape

end Json

open Json Decoder

/-! ## Parts of problems and requests -/

theorem Language.restores_encode (l : Language) : Language.decoder.Restores l.encode l where
  integral := rfl
  decoded := fun levels _ => by cases l <;> rfl

theorem SchemaEntry.restores_encode (e : SchemaEntry) :
    SchemaEntry.decoder.Restores e.encode e := by
  refine Restores.map (a := (e.name, e.typeName, e.inPlace, ()))
    (Shape.Restores.decoder ?fields (by decide)) _
  cases inPlace : e.inPlace with
  | none => exact ⟨rfl, restores_text _, rfl, restores_text _, rfl, trivial⟩
  | some b =>
    have flag : (nullable bool).Restores (Node.ofOption Node.bool (some b)) (some b) :=
      restores_nullable (fun a _ => restores_bool a) (fun _ => Node.noConfusion)
    exact ⟨rfl, restores_text _, rfl, restores_text _, rfl, flag, trivial⟩

/-- Whether the values of a test case are taken back from their text. -/
structure TestCase.IsStorable (c : TestCase) : Prop where
  input : ∀ v ∈ c.input, v.IsStorable
  expected : c.expected.IsStorable

instance (c : TestCase) : Decidable c.IsStorable :=
  decidable_of_iff ((∀ v ∈ c.input, v.IsStorable) ∧ c.expected.IsStorable)
    ⟨fun ⟨input, expected⟩ => ⟨input, expected⟩, fun ⟨input, expected⟩ => ⟨input, expected⟩⟩

theorem TestCase.restores_encode {c : TestCase} (storable : c.IsStorable) :
    TestCase.decoder.Restores c.encode c := by
  refine Restores.map (a := (c.input, c.expected, ()))
    (Shape.Restores.decoder ?fields (by decide)) _
  exact ⟨rfl, restores_list fun v found => restores_value (storable.input v found),
    rfl, restores_value storable.expected, trivial⟩

/-- Whether the index of an input fits a word. -/
def Options.IsStorable (o : Options) : Prop :=
  o.inputIndex ≤ Word.greatest 64

instance (o : Options) : Decidable o.IsStorable :=
  inferInstanceAs (Decidable (_ ≤ _))

theorem Options.restores_encode {o : Options} (storable : o.IsStorable) :
    Options.decoder.Restores o.encode o := by
  refine Restores.map (a := (o.unordered, o.severalExpected, o.returnsInput, o.inputIndex, ()))
    (Shape.Restores.decoder ?fields (by decide)) _
  exact ⟨rfl, restores_bool _, rfl, restores_bool _, rfl, restores_bool _,
    rfl, restores_word storable, trivial⟩

theorem CodeEntry.restores_encode (e : CodeEntry) : CodeEntry.decoder.Restores e.encode e := by
  refine Restores.map (a := (e.kind, e.code, ())) (Shape.Restores.decoder ?fields (by decide)) _
  exact ⟨rfl, restores_text _, rfl, restores_text _, trivial⟩

theorem Implementation.restores_encode (i : Implementation) :
    Implementation.decoder.Restores i.encode i := by
  refine Restores.map (a := (i.language, i.code, ()))
    (Shape.Restores.decoder ?fields (by decide)) _
  exact ⟨rfl, restores_text _, rfl, restores_list fun e _ => e.restores_encode, trivial⟩

/-- A text that may be missing is never written like a missing one. -/
theorem restores_text? (given : Option Text) :
    (nullable text).Restores (Node.ofOption .text given) given :=
  restores_nullable (fun s _ => restores_text s) fun _ => Node.noConfusion

/-! ## Whole problems and requests -/

/-- Whether a problem can be stored: its values are taken back from their text, its index is a word,
and written out it is not nested more deeply than a reader goes. -/
structure Problem.IsStorable (p : Problem) : Prop where
  testCases : ∀ c ∈ p.testCases, c.IsStorable
  options : p.options.IsStorable
  shallow : p.encode.depth ≤ maxLevels

theorem Problem.restores_encode {p : Problem} (storable : p.IsStorable) :
    Problem.decoder.Restores p.encode p := by
  refine Restores.map (a := (p.id, p.title, p.entryName, p.testCases, p.schema, p.options,
    p.implementations, ())) (Shape.Restores.decoder ?fields (by decide)) _
  exact ⟨rfl, restores_text? _, rfl, restores_text? _, rfl, restores_text? _,
    rfl, restores_list fun c found => TestCase.restores_encode (storable.testCases c found),
    rfl, restores_list fun e _ => e.restores_encode,
    rfl, Options.restores_encode storable.options,
    rfl, restores_list fun i _ => i.restores_encode, trivial⟩

/-- Whether a request can be sent, in the sense in which a problem can be stored. -/
structure RunRequest.IsStorable (r : RunRequest) : Prop where
  testCases : ∀ c ∈ r.testCases, c.IsStorable
  options : ∀ o ∈ r.options, o.IsStorable
  shallow : r.encode.depth ≤ maxLevels

theorem RunRequest.restores_encode {r : RunRequest} (storable : r.IsStorable) :
    RunRequest.decoder.Restores r.encode r := by
  refine Restores.map (a := (r.language, r.source, r.testCases, r.schema, r.entryName, r.options,
    ())) (Shape.Restores.decoder ?fields (by decide)) _
  exact ⟨rfl, r.language.restores_encode, rfl, restores_text _,
    rfl, restores_list fun c found => TestCase.restores_encode (storable.testCases c found),
    rfl, restores_list fun e _ => e.restores_encode, rfl, restores_text? _,
    rfl, restores_nullable (fun o given => Options.restores_encode (storable.options o given))
      (fun _ => Node.noConfusion), trivial⟩

/-- A request for a stored problem is nested no more deeply than the problem, whose parts it
repeats. -/
theorem RunRequest.isStorable_forProblem {p : Problem} (storable : p.IsStorable) (l : Language)
    (source : Text) : (forProblem p l source).IsStorable where
  testCases := storable.testCases
  options := fun o given => by
    obtain rfl : p.options = o := Option.some.inj given
    exact storable.options
  shallow := by
    have shallow := storable.shallow
    simp only [Problem.encode, encode, forProblem, Node.record, Node.ofOption, Node.depth,
      Node.membersDepth, List.map_cons, List.map_nil, Language.encode, Node.text] at shallow ⊢
    omega

/-- Stored problems and sent requests are taken back from their texts as they are, with every field
that is given and every one that is not. A request for a stored problem arrives with all that the
problem states. -/
theorem decodeText_write_encode :
    (∀ p : Problem, p.IsStorable → Problem.decoder.decodeText p.encode.write = .ok p) ∧
    (∀ r : RunRequest, r.IsStorable → RunRequest.decoder.decodeText r.encode.write = .ok r) ∧
    ∀ (p : Problem) (l : Language) (source : Text), p.IsStorable →
      ∃ r, RunRequest.decoder.decodeText (RunRequest.forProblem p l source).encode.write = .ok r ∧
        r.language = l ∧ r.source = source ∧ r.testCases = p.testCases ∧ r.schema = p.schema ∧
        r.entryName = p.entryName ∧ r.options = some p.options := by
  refine ⟨fun p storable => (Problem.restores_encode storable).decodeText_write storable.shallow,
    fun r storable => (RunRequest.restores_encode storable).decodeText_write storable.shallow,
    fun p l source storable => ⟨RunRequest.forProblem p l source, ?_, rfl, rfl, rfl, rfl, rfl, rfl⟩⟩
  have sent := RunRequest.isStorable_forProblem storable l source
  exact (RunRequest.restores_encode sent).decodeText_write sent.shallow

/-- A problem with a name to escape, values of every kind, and fields that are left out. -/
def Problem.sample : Problem where
  id := none
  title := some "Sum of \"pairs\"\n\u00fc"
  entryName := none
  testCases :=
    [⟨[.array [.int (-3), .array [], .null], .object [("k", .bool true), ("l", .string "\u0001")]],
      .int 9007199254740993⟩]
  schema := [⟨"nums", "number[]", some true⟩, ⟨"rest", "any", none⟩]
  options := ⟨true, false, true, 1⟩
  implementations := [⟨"python", [⟨"solution", "def f(x):\n\treturn x"⟩]⟩, ⟨"", []⟩]

/-- The sample comes back from its text, and so do a request for it and one with nothing given. -/
theorem decodeText_write_encode_sample :
    Problem.decoder.decodeText Problem.sample.encode.write = .ok Problem.sample ∧
    RunRequest.decoder.decodeText (RunRequest.encode ⟨.java, "", [], [], none, none⟩).write =
      .ok ⟨.java, "", [], [], none, none⟩ ∧
    ∃ r, RunRequest.decoder.decodeText
        (RunRequest.forProblem Problem.sample .cpp "int f();").encode.write = .ok r ∧
      r.options = some ⟨true, false, true, 1⟩ := by
  have storable : Problem.sample.IsStorable := ⟨by decide, by decide, by decide⟩
  obtain ⟨problems, requests, sent⟩ := decodeText_write_encode
  refine ⟨problems _ storable, requests _ ⟨by decide, by decide, by decide⟩, ?_⟩
  obtain ⟨r, decoded, -, -, -, -, -, options⟩ := sent _ .cpp "int f();" storable
  exact ⟨r, decoded, options⟩

end HarnessSynthesis
