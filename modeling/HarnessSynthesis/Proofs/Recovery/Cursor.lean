/-
# Recovery by offsets

Recovery works on whatever a judge captured, with a cursor, slices and an unsigned count of open
braces. Here it is written down with everything that could stop it: slices off the text or inside of
a character, a brace closed that was never opened, a cursor that stays where it is. None of these
happens to any output. The count is safe because every scan begins at an opening brace and ends
where that brace is closed; the cursor is safe because what it passes is a signature or an object
that starts with one. What the scan finds are the objects at disjoint places of the output, in
order.
-/

import HarnessSynthesis.Proofs.Recovery.Closing
import HarnessSynthesis.Proofs.Recovery.Embedded
import HarnessSynthesis.Proofs.Text.Checked

namespace HarnessSynthesis.Recovery

open Json
open Text (extend map_extend utf8 IsAscii)

/-! ## The end of an object -/

/-- The offset behind the brace at which no brace is open any more, from the octets at an offset. -/
def objectEndFrom (offset depth : Nat) : BraceState → List UInt8 → Checked (Option Nat)
  | _, [] => .ok none
  | .escaped, _ :: rest => objectEndFrom (offset + 1) depth .quoted rest
  | .quoted, o :: rest =>
    if o = '\\'.toUInt8 then objectEndFrom (offset + 1) depth .escaped rest
    else if o = '"'.toUInt8 then objectEndFrom (offset + 1) depth .code rest
    else objectEndFrom (offset + 1) depth .quoted rest
  | .code, o :: rest =>
    if o = '"'.toUInt8 then objectEndFrom (offset + 1) depth .quoted rest
    else if o = '{'.toUInt8 then objectEndFrom (offset + 1) (depth + 1) .code rest
    else if o = '}'.toUInt8 then
      match Checked.minus depth 1 with
      | .error trap => .error trap
      | .ok 0 => .ok (some (offset + 1))
      | .ok (left + 1) => objectEndFrom (offset + 1) (left + 1) .code rest
    else objectEndFrom (offset + 1) depth .code rest

/-- The offset behind the object that is opened at an offset. -/
def objectEnd? (raw : Text) (start : Nat) : Checked (Option Nat) := do
  objectEndFrom start 0 .code (← raw.octetsFrom start)

section ObjectEnd

variable {offset depth : Nat} {c : Char}

theorem objectEndFrom_append_of_le {state : BraceState} (inside : state ≠ .escaped)
    {os : List UInt8} (high : ∀ o ∈ os, 0x80 ≤ o.toNat) (rest : List UInt8) :
    objectEndFrom offset depth state (os ++ rest) =
      objectEndFrom (offset + os.length) depth state rest := by
  induction os generalizing offset with
  | nil => rfl
  | cons o os ih =>
    rw [List.forall_mem_cons] at high
    have differs (d : Char) (hd : IsAscii d) : o ≠ d.toUInt8 := Text.ne_toUInt8_of_le high.1 hd
    have step : objectEndFrom offset depth state (o :: (os ++ rest)) =
        objectEndFrom (offset + 1) depth state (os ++ rest) := by
      cases state with
      | escaped => exact absurd rfl inside
      | quoted =>
        rw [objectEndFrom, if_neg (differs '\\' (by decide)), if_neg (differs '"' (by decide))]
      | code =>
        rw [objectEndFrom, if_neg (differs '"' (by decide)), if_neg (differs '{' (by decide)),
          if_neg (differs '}' (by decide))]
    rw [List.cons_append, step, ih high.2, List.length_cons]
    congr 1
    omega

/-- A character beyond ASCII takes as many steps as it has octets, and changes nothing but that it
may be what a backslash escapes. -/
theorem objectEndFrom_utf8_of_wide {state : BraceState} (wide : ¬ IsAscii c) (t : Text) :
    objectEndFrom offset depth state (utf8 (c :: t)) =
      objectEndFrom (offset + c.utf8Size) depth (state.next c) (utf8 t) := by
  have high : ∀ o ∈ String.utf8EncodeChar c, 0x80 ≤ o.toNat :=
    fun _ mem => Text.le_of_mem_utf8EncodeChar wide mem
  have differs (d : Char) (hd : IsAscii d) : c ≠ d := Text.ne_of_not_isAscii wide hd
  rw [Text.utf8_cons, ← String.length_utf8EncodeChar]
  cases state with
  | code =>
    rw [objectEndFrom_append_of_le (by decide) high, BraceState.next,
      if_neg (differs '"' (by decide))]
  | quoted =>
    rw [objectEndFrom_append_of_le (by decide) high, BraceState.next,
      if_neg (differs '\\' (by decide)), if_neg (differs '"' (by decide))]
  | escaped =>
    obtain ⟨o, os, whole⟩ := List.exists_cons_of_ne_nil (String.utf8EncodeChar_ne_nil (c := c))
    rw [whole, List.forall_mem_cons] at high
    rw [whole, List.cons_append, objectEndFrom, objectEndFrom_append_of_le (by decide) high.2,
      List.length_cons, BraceState.next]
    congr 1
    omega

/-- Where an object is open, the count of braces does not fall below zero, and the object ends
where the braces of its characters say. -/
theorem objectEndFrom_utf8 (t : Text) (offset depth : Nat) (state : BraceState) :
    objectEndFrom offset (depth + 1) state (utf8 t) =
      .ok ((splitObject? (depth + 1) state t).map fun p => offset + p.1.octets) := by
  induction t generalizing offset depth state with
  | nil => cases state <;> rfl
  | cons c t ih =>
    by_cases ascii : IsAscii c
    · have size : c.utf8Size = 1 := Text.utf8Size_of_isAscii ascii
      have pass (depth' : Nat) (state' : BraceState) :
          objectEndFrom (offset + 1) (depth' + 1) state' (utf8 t) =
            .ok ((extend c (splitObject? (depth' + 1) state' t)).map
              fun p => offset + p.1.octets) := by
        rw [ih, map_extend, size]
      rw [Text.utf8_cons_of_isAscii ascii]
      cases state with
      | escaped => exact pass depth .quoted
      | quoted =>
        simp only [objectEndFrom, splitObject?,
          Text.toUInt8_inj ascii (show IsAscii '\\' by decide),
          Text.toUInt8_inj ascii (show IsAscii '"' by decide), pass]
        split
        · rfl
        · split <;> rfl
      | code =>
        simp only [objectEndFrom, splitObject?, Text.toUInt8_inj ascii (show IsAscii '"' by decide),
          Text.toUInt8_inj ascii (show IsAscii '{' by decide),
          Text.toUInt8_inj ascii (show IsAscii '}' by decide), pass]
        split
        · rfl
        · split
          · rfl
          · split
            · cases depth with
              | zero =>
                rw [Checked.minus_of_le (Nat.le_refl 1), if_pos (Nat.le_refl 1), Option.map_some,
                  Text.octets_cons, size]
                rfl
              | succ depth =>
                rw [Checked.minus_of_le (by omega), if_neg (by omega)]
                rfl
            · rfl
    · have differs (d : Char) (hd : IsAscii d) : c ≠ d := Text.ne_of_not_isAscii ascii hd
      have pass : splitObject? (depth + 1) state (c :: t) =
          extend c (splitObject? (depth + 1) (state.next c) t) := by
        cases state with
        | escaped => rfl
        | quoted =>
          rw [splitObject?, if_neg (differs '\\' (by decide)), if_neg (differs '"' (by decide)),
            BraceState.next, if_neg (differs '\\' (by decide)), if_neg (differs '"' (by decide))]
        | code =>
          rw [splitObject?, if_neg (differs '"' (by decide)), if_neg (differs '{' (by decide)),
            if_neg (differs '}' (by decide)), BraceState.next, if_neg (differs '"' (by decide))]
      rw [objectEndFrom_utf8_of_wide ascii, ih, pass, map_extend]

/-- The object opened at an offset is the one that is split off there. -/
theorem objectEnd?_append (front t : Text) :
    objectEnd? (front ++ '{' :: t) front.octets =
      .ok ((splitObject? 0 .code ('{' :: t)).map fun p => front.octets + p.1.octets) := by
  have step : objectEndFrom front.octets 0 .code (utf8 ('{' :: t)) =
      objectEndFrom (front.octets + 1) 1 .code (utf8 t) := rfl
  rw [objectEnd?, Text.octetsFrom_append]
  show objectEndFrom front.octets 0 .code (utf8 ('{' :: t)) = _
  rw [step, objectEndFrom_utf8, splitObject?_opening, ← extend_eq_prepend, map_extend]
  rfl

end ObjectEnd

/-! ## The scan -/

/-- The scan for objects: the cursor and what has been found, up to the last signature. -/
def scanLoop (raw : Text) : Loop (Nat × List Value) (List Value) where
  size s := raw.octets - s.1
  round s := do
    let (cursor, found) := s
    let ahead ← raw.sliceFrom cursor
    match Text.cut? signature ahead with
    | none => return .inr found
    | some (gap, _) =>
      let start := cursor + gap.octets
      match ← objectEnd? raw start with
      | some stop =>
        let object ← raw.slice start stop
        return .inl (stop, found ++ (item? object).toList)
      | none => return .inl (start + 1, found)

/-- An object at its place in an output, behind a gap. -/
structure Found where
  gap : Text
  object : Text
  members : List (Text × Value)
  starts : signature <+: object
  closes : ClosesAtEnd object
  parsed : Value.parse? object = some (.object members)

namespace Found

/-- The piece of the output. -/
def text (f : Found) : Text :=
  f.gap ++ f.object

def value (f : Found) : Value :=
  .object f.members

end Found

/-- Items parsed from objects that follow one another in a text. -/
def FoundIn (t : Text) (items : List Value) : Prop :=
  ∃ (pieces : List Found) (tail : Text), t = pieces.flatMap Found.text ++ tail ∧
    items = pieces.map Found.value

theorem foundIn_nil : FoundIn [] [] :=
  ⟨[], [], rfl, rfl⟩

theorem FoundIn.append {t : Text} {items : List Value} (found : FoundIn t items) (more : Text) :
    FoundIn (t ++ more) items := by
  obtain ⟨pieces, tail, rfl, rfl⟩ := found
  exact ⟨pieces, tail ++ more, List.append_assoc _ _ _, rfl⟩

/-- An object behind what has been searched adds its value, when it has one. -/
theorem FoundIn.append_object {t object : Text} {items : List Value} (found : FoundIn t items)
    (gap : Text) (starts : signature <+: object) (closes : ClosesAtEnd object) :
    FoundIn (t ++ gap ++ object) (items ++ (item? object).toList) := by
  rw [item?]
  split
  · rename_i members parsed
    obtain ⟨pieces, tail, rfl, rfl⟩ := found
    let piece : Found := ⟨tail ++ gap, object, members, starts, closes, parsed⟩
    refine ⟨pieces ++ [piece], [], ?_, ?_⟩
    · rw [List.flatMap_append, List.flatMap_singleton, List.append_nil, Found.text]
      simp only [piece, List.append_assoc]
    · rw [List.map_append]
      rfl
  · rw [Option.toList_none, List.append_nil]
    exact (found.append gap).append object

/-! ### What the scan of characters skips -/

theorem scan_eq_nil_of_cut? {t : Text} (absent : Text.cut? signature t = none) : scan t = [] := by
  apply scan_eq_nil
  apply Text.not_isInfix_of_contains_eq_false
  rw [Text.contains, absent]
  rfl

theorem scan_of_cut? {t gap rest : Text} (found : Text.cut? signature t = some (gap, rest)) :
    scan t = scan (signature ++ rest) := by
  induction t generalizing gap with
  | nil => cases found
  | cons c t ih =>
    rw [Text.cut?] at found
    split at found
    · rename_i here
      cases found
      rw [Text.afterPrefix?_eq_some_iff.1 here]
    · rename_i absent
      obtain ⟨⟨before, behind⟩, later, same⟩ := Option.map_eq_some_iff.1 found
      obtain ⟨rfl, rfl⟩ := Prod.mk.inj same
      rw [← ih later]
      apply scan_cons_of_not_isPrefix
      intro front
      rw [← Text.startsWith_iff, Text.startsWith, absent] at front
      cases front

/-- An object that is split off at a signature starts with all of it, since the signature has no
closing brace. -/
theorem signature_isPrefix_of_closesAtEnd {object behind rest : Text}
    (whole : signature ++ rest = object ++ behind) (closes : ClosesAtEnd object) :
    signature <+: object := by
  have front : object <+: signature ++ rest := whole ▸ List.prefix_append object behind
  rcases List.prefix_or_prefix_of_prefix (List.prefix_append signature rest) front with
    starts | inside
  · exact starts
  · obtain ⟨body, ends, -⟩ := closes.last
    have brace : '}' ∈ signature := by
      apply inside.subset
      rw [ends]
      exact List.mem_append_right body (List.mem_singleton_self _)
    exact absurd brace (by decide)

/-! ### The rounds -/

/-- What holds whenever the scan begins a round: the cursor lies between two characters, what is
found stands in front of it, and what is missing is behind it. -/
def Scanned (raw : Text) (s : Nat × List Value) : Prop :=
  ∃ front rest, raw = front ++ rest ∧ front.octets = s.1 ∧ FoundIn front s.2 ∧
    scan raw = s.2 ++ scan rest

theorem scanned_start (raw : Text) : Scanned raw (0, []) :=
  ⟨[], raw, rfl, rfl, foundIn_nil, rfl⟩

section Rounds

variable {front rest gap behind object behind' : Text} (found : List Value)

theorem round_of_absent (cut : Text.cut? signature rest = none) :
    (scanLoop (front ++ rest)).round (front.octets, found) = .ok (.inr found) := by
  simp only [scanLoop, Text.sliceFrom_append, cut, bind, Except.bind, pure, Except.pure]

/-- At a signature the scan looks for the end of the object that the signature opens. -/
theorem objectEnd?_of_cut? (cut : Text.cut? signature rest = some (gap, behind)) :
    objectEnd? (front ++ rest) (front.octets + gap.octets) =
      .ok ((splitObject? 0 .code (signature ++ behind)).map
        fun p => front.octets + gap.octets + p.1.octets) := by
  have start := objectEnd?_append (front ++ gap) (signature.tail ++ behind)
  have whole : front ++ rest = front ++ gap ++ (signature ++ behind) := by
    rw [Text.eq_append_of_cut? cut]
    simp only [List.append_assoc]
  rw [whole, ← Text.octets_append]
  exact start

theorem round_of_open (cut : Text.cut? signature rest = some (gap, behind))
    (endless : splitObject? 0 .code (signature ++ behind) = none) :
    (scanLoop (front ++ rest)).round (front.octets, found) =
      .ok (.inl (front.octets + gap.octets + 1, found)) := by
  simp only [scanLoop, Text.sliceFrom_append, cut, objectEnd?_of_cut? cut, endless, Option.map_none,
    bind, Except.bind, pure, Except.pure]

theorem round_of_object (cut : Text.cut? signature rest = some (gap, behind))
    (split : splitObject? 0 .code (signature ++ behind) = some (object, behind')) :
    (scanLoop (front ++ rest)).round (front.octets, found) =
      .ok (.inl (front.octets + gap.octets + object.octets, found ++ (item? object).toList)) := by
  have slice : (front ++ rest).slice (front.octets + gap.octets)
      (front.octets + gap.octets + object.octets) = .ok object := by
    have whole : front ++ rest = front ++ gap ++ object ++ behind' := by
      rw [Text.eq_append_of_cut? cut, List.append_assoc gap, append_of_splitObject? split]
      simp only [List.append_assoc]
    rw [whole, ← Text.octets_append, ← Text.octets_append]
    exact Text.slice_append (front ++ gap) object behind'
  simp only [scanLoop, Text.sliceFrom_append, cut, objectEnd?_of_cut? cut, split, Option.map_some,
    slice, bind, Except.bind, pure, Except.pure]

end Rounds

/-- Every round but the last passes an object that starts with a signature, or the first character
of a signature. -/
theorem advances_scanLoop (raw : Text) (s : Nat × List Value) (scanned : Scanned raw s) :
    (scanLoop raw).Advances (Scanned raw)
      (fun found => found = scan raw ∧ FoundIn raw found) s := by
  obtain ⟨cursor, found⟩ := s
  obtain ⟨front, rest, rfl, rfl, foundIn, missing⟩ := scanned
  dsimp only at foundIn missing ⊢
  cases cut : Text.cut? signature rest with
  | none =>
    apply Loop.Advances.out found (round_of_absent found cut)
    rw [missing, scan_eq_nil_of_cut? cut, List.append_nil]
    exact ⟨rfl, foundIn.append rest⟩
  | some p =>
    obtain ⟨gap, behind⟩ := p
    have whole := Text.eq_append_of_cut? cut
    rw [scan_of_cut? cut] at missing
    cases split : splitObject? 0 .code (signature ++ behind) with
    | none =>
      have opened : signature ++ behind = '{' :: (signature.tail ++ behind) := rfl
      apply Loop.Advances.on _ (round_of_open found cut split)
      · have size : signature.octets = 10 := rfl
        show (front ++ rest).octets - _ < (front ++ rest).octets - _
        rw [whole]
        simp only [Text.octets_append]
        omega
      · refine ⟨front ++ gap ++ ['{'], signature.tail ++ behind, ?_, ?_,
          (foundIn.append gap).append ['{'], ?_⟩
        · rw [whole, List.append_assoc gap, opened]
          simp only [List.append_assoc, List.singleton_append]
        · simp only [Text.octets_append]
          rfl
        · rw [opened] at split missing
          rw [missing, scan_cons_of_split_none split]
    | some p =>
      obtain ⟨object, behind'⟩ := p
      have closes : ClosesAtEnd object := closesAtEnd_of_splitObject? split
      have starts := signature_isPrefix_of_closesAtEnd (append_of_splitObject? split) closes
      apply Loop.Advances.on _ (round_of_object found cut split)
      · have size : 0 < object.octets := by
          obtain ⟨inside, rfl⟩ := closes.opens
          exact Nat.lt_of_lt_of_le (Char.utf8Size_pos '{') (Nat.le_add_right _ _)
        show (front ++ rest).octets - _ < (front ++ rest).octets - _
        rw [whole, List.append_assoc gap, append_of_splitObject? split]
        simp only [Text.octets_append]
        omega
      · refine
          ⟨front ++ gap ++ object, behind', ?_, ?_, foundIn.append_object gap starts closes, ?_⟩
        · rw [whole, List.append_assoc gap, append_of_splitObject? split]
          simp only [List.append_assoc]
        · simp only [Text.octets_append]
        · rw [missing, scan_of_split_some (List.prefix_append signature behind) split,
            List.append_assoc]

/-- The scan is not stopped, and it begins each round at a later character than the one before. -/
theorem exists_run_scanLoop (raw : Text) :
    ∃ states, (scanLoop raw).run (0, []) = .ok (states, scan raw) ∧ FoundIn raw (scan raw) ∧
      (∀ s ∈ states, raw.IsBoundary s.1) ∧ (states.map (·.1)).Pairwise (· < ·) := by
  obtain ⟨states, found, run, ⟨rfl, foundIn⟩, all, falling⟩ :=
    Loop.exists_run (advances_scanLoop raw) (scanned_start raw)
  refine ⟨states, run, foundIn, ?_, ?_⟩
  · intro s mem
    obtain ⟨front, rest, whole, size, -⟩ := (all s mem).1
    exact ⟨front, rest, whole, size⟩
  · rw [List.pairwise_map]
    apply falling.imp
    intro a b smaller
    have fewer : raw.octets - b.1 < raw.octets - a.1 := smaller
    omega

/-! ## The framed list -/

/-- The elements of the list between the marks. -/
def framedByOffsets? (raw : Text) : Checked (Option (List Value)) :=
  match Text.cut? startMark raw with
  | none => return none
  | some (before, _) => do
    let start := before.octets + startMark.octets
    let behind ← raw.sliceFrom start
    match Text.cut? endMark behind with
    | none => return none
    | some (payload, _) =>
      let payload ← raw.slice start (start + payload.octets)
      match Value.parse? payload.trim with
      | some (.array items) => return some items
      | _ => return none

theorem framedByOffsets?_eq (raw : Text) : framedByOffsets? raw = .ok (framedItems? raw) := by
  rw [framedByOffsets?, framedItems?, framed?]
  cases opened : Text.cut? startMark raw with
  | none => rfl
  | some p =>
    obtain ⟨before, behind⟩ := p
    have whole := Text.eq_append_of_cut? opened
    have ahead : raw.sliceFrom (before.octets + startMark.octets) = .ok behind := by
      rw [whole, ← Text.octets_append]
      exact Text.sliceFrom_append (before ++ startMark) behind
    cases closed : Text.cut? endMark behind with
    | none =>
      simp only [ahead, closed, bind, Except.bind, Option.bind_some, Option.bind_none]
      rfl
    | some p =>
      obtain ⟨payload, rest⟩ := p
      have inside : raw.slice (before.octets + startMark.octets)
          (before.octets + startMark.octets + payload.octets) = .ok payload := by
        rw [whole, Text.eq_append_of_cut? closed, List.append_assoc payload, ← List.append_assoc,
          ← Text.octets_append, ← Text.octets_append]
        exact Text.slice_append (before ++ startMark) payload (endMark ++ rest)
      simp only [ahead, closed, inside, bind, Except.bind, pure, Except.pure, Option.bind_some]
      cases Value.parse? payload.trim with
      | none => rfl
      | some v => cases v <;> rfl

/-! ## Extraction -/

/-- Recovery by offsets: the framed list, or else what the scan finds, unless that is nothing. -/
def extractByOffsets (raw : Text) : Checked (Except RecoveryError (List Value)) := do
  match ← framedByOffsets? raw with
  | some items => return .ok items
  | none =>
    let (_, found) ← (scanLoop raw).run (0, [])
    return if found.isEmpty then .error .noResults else .ok found

/-- Recovery is not stopped by any output. Its scan goes forward from character to character and
not past the end. What the scan recovers are the values of objects that follow one another in the
output, each starting with the signature and ending where its first brace is closed; and an error is
reported exactly when there is no framed list and the scan finds nothing. -/
theorem extractByOffsets_eq (raw : Text) :
    extractByOffsets raw = .ok (extract raw) ∧
      (∃ states, (scanLoop raw).run (0, []) = .ok (states, scan raw) ∧
        (states.map (·.1)).Pairwise (· < ·) ∧
        ∀ s ∈ states, raw.IsBoundary s.1 ∧ s.1 ≤ raw.octets) ∧
      (∀ items, framedItems? raw = none → extract raw = .ok items →
        ∃ (pieces : List Found) (tail : Text), raw = pieces.flatMap Found.text ++ tail ∧
          items = pieces.map Found.value) ∧
      (extract raw = .error .noResults ↔ framedItems? raw = none ∧ scan raw = []) := by
  obtain ⟨states, run, foundIn, boundaries, rising⟩ := exists_run_scanLoop raw
  refine ⟨?_, ⟨states, run, rising, ?_⟩, ?_, ?_⟩
  · rw [extractByOffsets, framedByOffsets?_eq, extract]
    cases framedItems? raw with
    | some items => rfl
    | none =>
      simp only [run, bind, Except.bind, pure, Except.pure]
      cases scan raw <;> rfl
  · intro s mem
    exact ⟨boundaries s mem, (boundaries s mem).le⟩
  · intro items unframed answer
    rw [extract, unframed] at answer
    dsimp only at answer
    split at answer
    · cases answer
    · cases answer
      exact foundIn
  · rw [extract]
    cases framedItems? raw with
    | some items => simp
    | none => cases scan raw <;> simp

/-- A start that never ends hides no object behind it: the object inside is recovered, and the start
is left as a gap in front of it. -/
theorem extractByOffsets_eq_inner :
    ∃ (pieces : List Found) (tail : Text),
      signature ++ (signature ++ "true\x7d".toList) = pieces.flatMap Found.text ++ tail ∧
        [.object [("status".toList, .bool true)]] = pieces.map Found.value := by
  have unframed : framedItems? (signature ++ (signature ++ "true\x7d".toList)) = none := by decide
  have endless : splitObject? 0 .code (signature ++ (signature ++ "true\x7d".toList)) = none := by
    decide
  have found : scan (signature ++ (signature ++ "true\x7d".toList)) =
      [.object [("status".toList, .bool true)]] := by
    let members : List (Option Text × Node) := [(some "status".toList, .bool true)]
    have integral : Node.membersIntegral members = true := rfl
    have inner := scan_write_object integral rfl []
    rw [scan_nil] at inner
    have passed : scan (signature ++ (signature ++ "true\x7d".toList)) =
        scan (signature ++ "true\x7d".toList) :=
      (scan_cons_of_split_none endless).trans
        (scan_append_of_not_mem (s := signature.tail) (by decide) _)
    exact passed.trans inner
  have answer : extract (signature ++ (signature ++ "true\x7d".toList)) =
      .ok [.object [("status".toList, .bool true)]] := by
    rw [extract, unframed, found]
  exact (extractByOffsets_eq _).2.2.1 _ unframed answer

end HarnessSynthesis.Recovery
