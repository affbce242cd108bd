/-
# Recovering what was framed

Verdicts that a harness has framed are all found again, whatever was printed around the frame and
whatever their strings hold. A string may hold the end mark, and then the text up to it is not the
list but a proper beginning of it. That parses as nothing, and the scan finds the verdicts instead.
It finds them also where the list is nested one level too deep to be read as a whole.
-/

import HarnessSynthesis.Proofs.Recovery.Printed
import HarnessSynthesis.Proofs.Json.Extension

namespace HarnessSynthesis

open Json Recovery

namespace Recovery

/-! ## Between the marks -/

/-- A mark at the start of a line is found there, unless it occurs before. -/
theorem cut?_startMark {p : Text} (lineStart : p = [] ∨ p.getLast? = some '\n')
    (noMark : Text.contains startMark p = false) (t : Text) :
    Text.cut? startMark (p ++ (startMark ++ t)) = some (p, t) := by
  rcases lineStart with rfl | ends
  · exact Text.cut?_eq_some_of_isPrefix (by decide)
  · obtain ⟨lines, rfl⟩ := List.getLast?_eq_some_iff.1 ends
    have absent : ¬ startMark <:+: lines := by
      intro inside
      apply Text.not_isInfix_of_contains_eq_false noMark
      exact inside.trans (List.prefix_append lines _).isInfix
    rw [List.append_assoc, List.singleton_append,
      Text.cut?_append_cons_append (by decide) (by decide) absent]

theorem framed?_of_cut? {raw before behind payload after : Text}
    (start : Text.cut? startMark raw = some (before, behind))
    (stop : Text.cut? endMark behind = some (payload, after)) : framed? raw = some payload := by
  simp only [framed?, start, stop, Option.bind_eq_bind, Option.bind_some, Option.pure_def]

theorem framed?_eq_none_of_cut? {raw before behind : Text}
    (start : Text.cut? startMark raw = some (before, behind))
    (stop : Text.cut? endMark behind = none) : framed? raw = none := by
  simp only [framed?, start, stop, Option.bind_eq_bind, Option.bind_some, Option.bind_none]

theorem framedItems?_of_framed? {raw payload : Text} (found : framed? raw = some payload) :
    framedItems? raw = (Value.parse? payload.trim).bind Value.items? := by
  simp only [framedItems?, found, Option.bind_eq_bind, Option.bind_some]
  cases Value.parse? payload.trim with
  | none => rfl
  | some v => cases v <;> rfl

theorem framedItems?_of_framed?_eq_none {raw : Text} (missing : framed? raw = none) :
    framedItems? raw = none := by
  rw [framedItems?, missing]
  rfl

end Recovery

namespace PrintedVerdict

/-! ## Reading the list -/

/-- The list is read as its values, or it is nested too deep. -/
theorem parse?_listText (vs : List PrintedVerdict) :
    Value.parse? (listText vs) = none ∨
      Value.parse? (listText vs) = some (.array (vs.map value)) := by
  rw [listText, Value.parse?_write (n := .array (vs.map node)) (itemsIntegral_nodes vs),
    Node.toValue?, if_neg (by decide)]
  cases values : Node.toItems? (maxLevels - 1) (vs.map node) with
  | none => exact Or.inl rfl
  | some items =>
    have enough := Value.toItems?_mono values (Nat.sub_le maxLevels 1)
    rw [toItems?_nodes] at enough
    cases enough
    exact Or.inr rfl

/-- A beginning of the list and its line is trimmed to a beginning of the list. -/
theorem trim_isPrefix {payload : Text} {vs : List PrintedVerdict}
    (inside : payload <+: '\n' :: listText vs) : payload.trim <+: listText vs := by
  cases payload with
  | nil => exact List.nil_prefix
  | cons c t =>
    obtain ⟨rfl, begun⟩ := List.cons_prefix_cons.1 inside
    rw [Text.trim, Text.trimStart_cons_of_isBlank (by decide)]
    cases t with
    | nil => exact List.nil_prefix
    | cons d t =>
      have opening : d = '[' := by
        rw [listText_eq] at begun
        exact (List.cons_prefix_cons.1 begun).1
      rw [Text.trimStart_cons_of_not_isBlank (by rw [opening]; decide)]
      exact (Text.trimEnd_isPrefix _).trans begun

theorem trim_listText (vs : List PrintedVerdict) :
    Text.trim ('\n' :: (listText vs ++ ['\n'])) = listText vs := by
  rw [Text.trim, Text.trimStart_cons_of_isBlank (by decide), listText_eq, List.cons_append,
    Text.trimStart_cons_of_not_isBlank (by decide), ← List.cons_append,
    Text.trimEnd_append_of_isBlank (by decide), ← List.cons_append,
    Text.trimEnd_append_of_not_isBlank (by decide)]

/-- Where the text between the marks is trimmed to a beginning of the list, the list is found
as a whole or not at all. -/
theorem framedItems?_cases {raw payload : Text} {vs : List PrintedVerdict}
    (found : framed? raw = some payload) (inside : payload.trim <+: listText vs) :
    framedItems? raw = none ∨ framedItems? raw = some (vs.map value) := by
  rw [framedItems?_of_framed? found]
  by_cases whole : payload.trim = listText vs
  · rw [whole]
    rcases parse?_listText vs with none | some
    · exact Or.inl (by rw [none, Option.bind_none])
    · exact Or.inr (by rw [some, Option.bind_some, Value.items?])
  · exact Or.inl (by rw [Value.parse?_eq_none_of_cut (itemsIntegral_nodes vs) inside whole,
      Option.bind_none])

/-! ## Extraction -/

section Noise

variable {p q : Text} (vs : List PrintedVerdict)

theorem framed_append_eq :
    p ++ framed vs ++ q =
      p ++ (startMark ++ '\n' :: (listText vs ++ '\n' :: (endMark ++ q))) := by
  rw [framed_eq]
  simp only [List.append_assoc, List.cons_append]

/-- Read as a list, framed verdicts are found as they are or not at all. -/
theorem framedItems?_framed (lineStart : p = [] ∨ p.getLast? = some '\n')
    (noMark : Text.contains startMark p = false) :
    framedItems? (p ++ framed vs ++ q) = none ∨
      framedItems? (p ++ framed vs ++ q) = some (vs.map value) := by
  have start := cut?_startMark lineStart noMark ('\n' :: (listText vs ++ '\n' :: (endMark ++ q)))
  rw [← framed_append_eq] at start
  cases stop : Text.cut? endMark ('\n' :: (listText vs ++ '\n' :: (endMark ++ q))) with
  | none => exact Or.inl (framedItems?_of_framed?_eq_none (framed?_eq_none_of_cut? start stop))
  | some parts =>
    obtain ⟨payload, after⟩ := parts
    refine framedItems?_cases (framed?_of_cut? start stop) ?_
    -- The end mark behind the list may not be the first one, but none is later.
    have other : '\n' :: (listText vs ++ '\n' :: (endMark ++ q)) =
        '\n' :: listText vs ++ ['\n'] ++ endMark ++ q := by
      simp only [List.cons_append, List.append_assoc, List.nil_append]
    have long := Text.length_le_of_cut? stop other
    rw [Text.eq_append_of_cut? stop, List.append_assoc, List.append_assoc _ endMark q] at other
    have begun : payload <+: '\n' :: listText vs ++ ['\n'] :=
      List.prefix_of_prefix_length_le (other ▸ List.prefix_append payload _)
        (List.prefix_append _ (endMark ++ q)) long
    rcases List.prefix_concat_iff.1 begun with whole | short
    · exact ⟨[], by rw [whole, List.append_nil, List.cons_append, trim_listText]⟩
    · exact trim_isPrefix short

/-- The scan finds framed verdicts where the noise around them has no signature. -/
theorem scan_framed (noVerdict : Text.contains signature p = false)
    (noVerdictBehind : Text.contains signature q = false) :
    scan (p ++ framed vs ++ q) = vs.map value := by
  have mark : startMark ++ ['\n', '['] = '_' :: (startMark ++ ['\n', '[']).tail := by decide
  have front := Text.not_isInfix_of_contains_eq_false noVerdict
  have behind := Text.not_isInfix_of_contains_eq_false noVerdictBehind
  rw [framed_eq_writeItems, List.append_assoc, List.append_assoc, mark, List.cons_append,
    scan_append_cons front (by decide), ← List.cons_append, ← mark,
    scan_append_of_not_mem (by decide), List.append_assoc, scan_writeItems,
    scan_append_of_not_mem (by decide), scan_eq_nil behind, List.append_nil]

/-- An empty list is read as such. -/
theorem framedItems?_framed_nil (lineStart : p = [] ∨ p.getLast? = some '\n')
    (noMark : Text.contains startMark p = false) :
    framedItems? (p ++ framed [] ++ q) = some [] := by
  have start := cut?_startMark lineStart noMark ('\n' :: (listText [] ++ '\n' :: (endMark ++ q)))
  rw [← framed_append_eq] at start
  have stop : Text.cut? endMark ('\n' :: listText [] ++ '\n' :: (endMark ++ q)) =
      some ('\n' :: listText [] ++ ['\n'], q) :=
    Text.cut?_append_cons_append (by decide) (by decide) (by decide) q
  rw [framedItems?_of_framed? (framed?_of_cut? start stop), List.cons_append, trim_listText]
  rfl

/-- Framed verdicts are recovered exactly, in their order, between any lines in front that hold
neither the start mark nor a signature and any text behind that holds no signature. -/
theorem extract_framed (lineStart : p = [] ∨ p.getLast? = some '\n')
    (noMark : Text.contains startMark p = false)
    (noVerdict : Text.contains signature p = false)
    (noVerdictBehind : Text.contains signature q = false) :
    extract (p ++ framed vs ++ q) = .ok (vs.map value) := by
  rcases framedItems?_framed (q := q) vs lineStart noMark with missing | found
  · cases vs with
    | nil =>
      rw [framedItems?_framed_nil lineStart noMark] at missing
      cases missing
    | cons v vs =>
      rw [extract, missing, scan_framed (v :: vs) noVerdict noVerdictBehind]
      rfl
  · rw [extract, found]

end Noise

/-- A verdict whose logs hold the end mark, a signature, the start mark, a quote, a backslash and
braces. -/
def noisy : PrintedVerdict where
  status := .fail
  expected := .array [.int 1, .int (-2)]
  actual := .string signature
  time := 3
  logs := some ("\"\\\x7d".toList ++ endMark ++ signature ++ startMark)
  error := some endMark
  expected_isPrintable := ⟨by decide, by decide, by decide⟩
  actual_isPrintable := ⟨by decide, by decide, by decide⟩
  time_isWord := by decide

theorem extract_framed_noisy :
    extract ("compiling...\n".toList ++ framed [noisy, noisy] ++ "done\n".toList) =
      .ok [noisy.value, noisy.value] :=
  extract_framed [noisy, noisy] (Or.inr (by decide)) (by decide) (by decide) (by decide)

end PrintedVerdict

end HarnessSynthesis
