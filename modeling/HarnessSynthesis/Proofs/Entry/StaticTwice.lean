/-
# Writing static twice

Written into its own result, `static` should change nothing. The second scan goes over the text of
the first one with the word in it. Where the word is one of its own, the scan hits what the first
one hit, and finds the word as a modifier or in front of the keyword. Where a modifier or an
annotation stands directly in front, the word is read as a part of it and is written once more.
-/

import HarnessSynthesis.Proofs.Entry.MarkedDeclarations

namespace HarnessSynthesis.TypedSource

open Source
open scoped Text.OfCharacters
open Text (isBlank isNameChar isNameStart isWordChar)

namespace Marked

/-! ## Classes -/

/-- The keyword of a class begins no type. -/
theorem AtKeyword.isReturnType_eq_false {t : Text} (keyword : AtKeyword t) :
    isReturnType (dropQualifiers t.trimEnd) = false := by
  obtain ⟨rest, rfl, blank⟩ := keyword
  let m : Marked := (true, 'c') :: unmarked ("lass" ++ rest)
  have first {a b : Marked} {c : Char} (whole : m = a ++ (true, c) :: b) :
      a = [] ∧ c = 'c' ∧ b = unmarked ("lass" ++ rest) := by
    cases a with
    | nil =>
      obtain ⟨head, rfl⟩ := List.cons.inj whole
      exact ⟨rfl, (congrArg Prod.snd head).symm, rfl⟩
    | cons x a =>
      have mem : (true, c) ∈ unmarked ("lass" ++ rest) := by
        rw [(List.cons.inj whole).2]
        exact List.mem_append_right _ List.mem_cons_self
      obtain ⟨d, -, same⟩ := List.mem_map.1 mem
      cases congrArg Prod.fst same
  have text : bare m = "class".toList ++ rest := by
    change 'c' :: bare (unmarked ("lass" ++ rest)) = _
    rw [bare_unmarked]
    rfl
  have spaced : Spaced m := by
    constructor
    · intro a c b whole
      obtain ⟨rfl, rfl, rfl⟩ := first whole
      refine ⟨Or.inl (by decide), fun d found => Or.inl ?_⟩
      rw [Text.trimStart_cons_of_not_isBlank (by decide)] at found
      cases found
      decide
    · intro a k d c b whole
      obtain ⟨empty, -⟩ := first (a := a ++ [(k, d)]) (by rw [whole, List.append_assoc]; rfl)
      simp at empty
  have keywords : OnKeywords m 0 := by
    intro a c b whole _
    obtain ⟨rfl, rfl, rfl⟩ := first whole
    exact ⟨rest, by rw [bare_unmarked]; rfl, blank⟩
  obtain ⟨a, blanks, whole, allBlanks, ended, -⟩ := keywords.exists_trimEnd
  rw [whole] at spaced keywords
  obtain ⟨a, b, rfl, dropped, -, keywords'⟩ :=
    exists_dropQualifiers spaced.left (keywords.trimEnd allBlanks)
  rw [← text, ended, dropped]
  cases a with
  | nil => rfl
  | cons x a =>
    obtain ⟨rfl, -⟩ : x = (true, 'c') ∧ _ := (List.cons.inj whole).imp_left Eq.symm
    obtain ⟨rest', text', blank'⟩ := keywords' [] 'c' a rfl (Nat.zero_le _)
    have name : ∀ d ∈ "class".toList, isNameChar d = true := by decide
    have word := (Text.takeWhile_dropWhile_append name fun d head =>
      Text.isNameChar_of_isBlank (blank' d head)).1
    rw [bare_cons, text', isReturnType, word]
    simp [nonTypeWords]

variable {m a b : Marked} {c : Char}

/-- Between `static` and the keyword of a class no type begins. -/
theorem Marking.exists_visible (marking : Marking m) (whole : m = a ++ b)
    (starts : StartsClass (bare b)) {x y : Marked} (split : a = x ++ (true, c) :: y) :
    ∃ d ∈ c :: bare y, isBlank d = false := by
  by_contra none
  have blank : Text.Blank (c :: bare y) := by
    intro d mem
    simpa using fun visible => none ⟨d, mem, visible⟩
  have start : Text.trimStart (c :: bare (y ++ b)) = bare b := by
    obtain ⟨gap, name, behind, keyword, -⟩ := starts
    rw [bare_append, ← List.cons_append, Text.trimStart_append_of_blank blank, keyword]
    exact Text.trimStart_cons_of_not_isBlank (c := 'c') (by decide)
  rcases marking.typeAt_or_startsClass (a := x) (c := c) (b := y ++ b)
      (by rw [whole, split, List.append_assoc]; rfl) with
    ⟨type, named, same, place⟩ | ⟨gap, name, behind, keyword, -⟩
  · obtain ⟨d, rest, visible, -⟩ := place.exists_visible
    have ends : Ends (Text.trimStart type) named := by
      refine ⟨by rw [visible]; exact List.cons_ne_nil _ _, ?_, place.ends.first⟩
      have last := place.begins
      rwa [← Text.takeWhile_append_trimStart type, visible, List.getLast?_append_cons, ← visible]
        at last
    rw [same, place.trimStart_append] at start
    have keyword : AtKeyword (Text.trimStart type) := StartsClass.atKeyword ends (start ▸ starts)
    have isType := place.isType
    rw [Text.trim, keyword.isReturnType_eq_false] at isType
    cases isType
  · obtain ⟨rfl, -⟩ : c = 'c' ∧ _ := List.cons.inj keyword
    exact absurd (blank 'c' List.mem_cons_self) (by decide)

/-- `static` in front of the keyword of a class is there in both texts. -/
theorem Marking.endsWith_static (marking : Marking m) (whole : m = a ++ b)
    (starts : StartsClass (bare b)) (ends : Text.endsWith "static" (bare a).trimEnd = true) :
    Text.endsWith "static" (written a).trimEnd = true := by
  obtain ⟨a, blanks, rfl, -, trimmed, trimmed'⟩ := exists_end (p := isBlank) a
    fun x c y split => marking.exists_visible whole starts split
  rw [Text.trimEnd, trimmed, Text.endsWith, Option.isSome_iff_exists] at ends
  obtain ⟨front, found⟩ := ends
  obtain ⟨x, y, rfl, -, word⟩ := exists_of_bare_eq_append (Text.beforeSuffix?_eq_some_iff.1 found)
  obtain ⟨k, y, rfl, word'⟩ := exists_of_bare_eq_cons (c := 's') (t := "tatic") word
  have spaced : Spaced ((k, 's') :: y) := (whole ▸ marking.spaced).left.left.right
  obtain ⟨y, rfl, -⟩ := exists_of_isPrefix (w := "tatic") (by decide) (by decide) spaced.tail
    (spaced.plain (by decide)) (Or.inl (by rw [word']))
  rw [bare_append, bare_unmarked] at word'
  obtain rfl : y = [] := List.map_eq_nil_iff.1 (List.append_right_eq_self.1 word')
  rw [Text.trimEnd, trimmed', Text.endsWith, Option.isSome_iff_exists]
  refine ⟨written x ++ Marked.word k, Text.beforeSuffix?_eq_some_iff.2 ?_⟩
  rw [written_append, written_cons, written_append, written_unmarked, written_nil,
    List.append_assoc]
  rfl

/-- Whether an outermost class found in the written text has `static` in front, like the one of the
other text or because it is written in. -/
structure FoundStatic (hit hit' : Hit Unit) : Prop where
  depth : braceDepth hit'.before = braceDepth hit.before
  static : braceDepth hit.before = 0 → Text.endsWith "static" hit'.before.trimEnd = true

theorem Marking.foundStatic (marking : Marking m) {hit hit' : Hit Unit}
    (occurs : hit ∈ occurrences class? (bare m))
    (hits : HitsAt class? (fun _ _ _ => True) m hit hit') : FoundStatic hit hit' := by
  obtain ⟨before, found⟩ := hit
  obtain ⟨before', found'⟩ := hit'
  obtain ⟨a, k, c, b, x, y, whole, -, rfl, rfl, read, -⟩ := hits
  have starts : StartsClass (bare ((k, c) :: b)) := startsClass_of_class? read
  have depth := marking.braceDepth_written whole
  cases k with
  | true =>
    have text : written a ++ word true = ((written a ++ "stati") ++ ['c']) ++ [' '] := by
      simp only [List.append_assoc]
      rfl
    refine ⟨?_, fun _ => ?_⟩
    · rw [braceDepth, braceDepthFrom_append (by decide)]
      exact depth
    · rw [text, Text.trimEnd_append_of_isBlank (by decide),
        Text.trimEnd_append_of_not_isBlank (by decide), Text.endsWith, Option.isSome_iff_exists]
      exact ⟨written a, Text.beforeSuffix?_eq_some_iff.2 (List.append_assoc _ _ _)⟩
  | false =>
    rw [word, if_neg Bool.false_ne_true, List.append_nil]
    refine ⟨depth, fun outermost => marking.endsWith_static whole starts ?_⟩
    by_contra apart
    have mem : Text.octets (bare a) ∈ classOffsets (bare m) :=
      List.mem_filterMap.2 ⟨_, occurs, if_pos ⟨outermost, apart⟩⟩
    exact absurd ((marking.marked a false c b whole).2 (List.mem_append_right _ mem))
      Bool.false_ne_true

/-- The classes of both texts are found one by one. -/
theorem Marking.forall₂_classes (marking : Marking m) :
    List.Forall₂ FoundStatic (occurrences class? (bare m)) (occurrences class? (written m)) := by
  have hits : List.Forall₂ (HitsAt class? (fun _ _ _ => True) m) (occurrences class? (bare m))
      (occurrences class? (written m)) :=
    forall₂_occurrences fun a k c b => readsAt_class? marking.spaced fun a c b whole =>
      marking.wordMayBegin_eq_false whole
  exact ((List.forall₂_and_left _ _).2 ⟨fun hit mem => mem, hits⟩).imp fun hit hit' both =>
    marking.foundStatic both.1 both.2

end Marked

/-! ## Both passes -/

/-- Stripped, the new source is the stripped source with the word written in. -/
theorem stripComments_makeStatic (source : Text) :
    stripComments .java (makeStatic source) =
      insertAt "static " (methodOffsets (stripComments .java source) ++
        classOffsets (stripComments .java source)) 0 (stripComments .java source) := by
  have placed : WellPlaced .java .code 0 (methodOffsets (stripComments .java source) ++
      classOffsets (stripComments .java source)) source := by
    intro place mem _
    obtain ⟨before, c, rest, whole, size, keeps, idle⟩ :=
      exists_of_mem_offsets_stripComments (List.mem_append.1 mem)
    exact ⟨before, c, rest, whole, by rw [size, Nat.zero_add], keeps, idle⟩
  have belongs : Region.code.Belongs .java := trivial
  exact stripFrom_insertAt (by decide) idle_static (by decide) belongs placed

/-- Whether the word is one of its own at each place where it is written into a stripped source. -/
def ApartEverywhere (stripped : Text) : Prop :=
  ∀ place ∈ methodOffsets stripped ++ classOffsets stripped,
    ∀ p ∈ Text.splitAtOctet? place stripped, Apart p.1

instance (stripped : Text) : Decidable (ApartEverywhere stripped) :=
  inferInstanceAs (Decidable (∀ _ ∈ _, ∀ _ ∈ _, _))

theorem octets_not_mem_offsets (t : Text) :
    0 + Text.octets t ∉ methodOffsets t ++ classOffsets t := by
  intro mem
  obtain ⟨front, c, back, whole, size, -⟩ := exists_of_mem_offsets (List.mem_append.1 mem)
  have positive : 0 < c.utf8Size := c.utf8Size_pos
  rw [whole, Text.octets_append, Text.octets_cons] at size
  omega

theorem forall_of_forall₂ {α β : Type} {R : α → β → Prop} {p : β → Prop} {l : List α} {l' : List β}
    (related : List.Forall₂ R l l') (of : ∀ a b, R a b → p b) : ∀ b ∈ l', p b :=
  ((List.forall₂_and_left l' l).1 (related.flip.imp fun b a both => ⟨of a b both, both⟩)).1

/-- Nothing is left to write where all outermost declarations are found with the word. -/
theorem makeStatic_eq_self {source : Text}
    (methods : ∀ c ∈ candidates .java (stripComments .java source), c.depth = 0 →
      "static".toList ∈ c.modifiers)
    (classes : ∀ hit ∈ occurrences class? (stripComments .java source), braceDepth hit.before = 0 →
      Text.endsWith "static" hit.before.trimEnd = true) : makeStatic source = source := by
  have noMethods : methodOffsets (stripComments .java source) = [] :=
    List.filterMap_eq_nil_iff.2 fun c mem => if_neg fun lacks => lacks.2 (methods c mem lacks.1)
  have noClasses : classOffsets (stripComments .java source) = [] :=
    List.filterMap_eq_nil_iff.2 fun hit mem => if_neg fun lacks => lacks.2 (classes hit mem lacks.1)
  simp only [makeStatic, noMethods, noClasses, List.append_nil]
  exact insertAt_nil source

/-- Where the word is one of its own at each place, both scans find the same methods and classes one
by one, all outermost ones of the second scan have the word, and nothing is written once more. -/
theorem makeStatic_makeStatic (source : Text)
    (apart : ApartEverywhere (stripComments .java source)) :
    List.Forall₂ (fun c c' => c'.name = c.name ∧ c'.depth = c.depth ∧ c.modifiers ⊆ c'.modifiers ∧
        (c'.depth = 0 → "static".toList ∈ c'.modifiers))
      (candidates .java (stripComments .java source))
      (candidates .java (stripComments .java (makeStatic source))) ∧
    List.Forall₂ (fun hit hit' => braceDepth hit'.before = braceDepth hit.before ∧
        (braceDepth hit'.before = 0 → Text.endsWith "static" hit'.before.trimEnd = true))
      (occurrences class? (stripComments .java source))
      (occurrences class? (stripComments .java (makeStatic source))) ∧
    makeStatic (makeStatic source) = makeStatic source := by
  have marking := Marked.marking_mark apart
  have text := stripComments_makeStatic source
  rw [← Marked.written_mark (octets_not_mem_offsets _)] at text
  have methods := marking.forall₂_candidates
  have classes := marking.forall₂_classes
  rw [Marked.bare_mark, ← text] at methods classes
  have methods' : List.Forall₂ (fun c c' => c'.name = c.name ∧ c'.depth = c.depth ∧
        c.modifiers ⊆ c'.modifiers ∧ (c'.depth = 0 → "static".toList ∈ c'.modifiers))
      (candidates .java (stripComments .java source))
      (candidates .java (stripComments .java (makeStatic source))) := by
    refine ((List.forall₂_and_left _ _).2 ⟨fun c mem => mem, methods⟩).imp ?_
    rintro c c' ⟨mem, found⟩
    refine ⟨found.name, found.depth, found.modifiers, fun outermost => ?_⟩
    by_cases static : "static".toList ∈ c.modifiers
    · exact found.modifiers static
    · refine found.static ?_
      rw [Marked.bare_mark]
      exact List.mem_filterMap.2 ⟨c, mem, if_pos ⟨found.depth.symm.trans outermost, static⟩⟩
  have classes' : List.Forall₂ (fun hit hit' => braceDepth hit'.before = braceDepth hit.before ∧
        (braceDepth hit'.before = 0 → Text.endsWith "static" hit'.before.trimEnd = true))
      (occurrences class? (stripComments .java source))
      (occurrences class? (stripComments .java (makeStatic source))) := by
    refine classes.imp fun hit hit' found => ⟨found.depth, fun outermost => ?_⟩
    exact found.static (found.depth.symm.trans outermost)
  refine ⟨methods', classes', makeStatic_eq_self (fun c' mem => ?_) fun hit' mem => ?_⟩
  · exact forall_of_forall₂ methods' (fun _ _ found => found.2.2.2) c' mem
  · exact forall_of_forall₂ classes' (fun _ _ found => found.2) hit' mem

theorem makeStatic_makeStatic_generic :
    ApartEverywhere (stripComments .java
        "class Pair \x7b\x7d\n@Deprecated public <T> T pick(T a) \x7b return a; \x7d") ∧
      makeStatic (makeStatic
          "class Pair \x7b\x7d\n@Deprecated public <T> T pick(T a) \x7b return a; \x7d") =
        makeStatic "class Pair \x7b\x7d\n@Deprecated public <T> T pick(T a) \x7b return a; \x7d" :=
  ⟨by decide +kernel, (makeStatic_makeStatic _ (by decide +kernel)).2.2⟩

/-- Directly behind a modifier or the name of an annotation the word is lost in it. -/
theorem makeStatic_abutting :
    makeStatic "public<T> T pick(T a) \x7b return a; \x7d" =
        "publicstatic <T> T pick(T a) \x7b return a; \x7d" ∧
      makeStatic (makeStatic "public<T> T pick(T a) \x7b return a; \x7d") =
        "static publicstatic <T> T pick(T a) \x7b return a; \x7d" ∧
      makeStatic "@Override<T> T pick(T a) \x7b return a; \x7d" =
        "@Overridestatic <T> T pick(T a) \x7b return a; \x7d" := by
  decide +kernel

end HarnessSynthesis.TypedSource
