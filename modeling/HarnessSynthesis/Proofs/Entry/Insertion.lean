/-
# Writing words into a source

A word is written into a text at offsets. Over the text in one pass, `insertAt` asks at each
character whether its offset is among them; an offset that lies inside of a character would be
passed over. `splice?` cuts the text at the offsets one after the other, and it fails where one of
them cannot be cut at. For offsets that are places of the text both come to the same.

What is written in at well chosen places makes no difference to comments: stripping the new source
is writing the word into the stripped source, at the same offsets.
-/

import HarnessSynthesis.Entry.StaticMembers
import HarnessSynthesis.Proofs.Source.Places

namespace HarnessSynthesis.TypedSource

open Source

/-! ## Writing in one pass -/

section InsertAt

variable {word : Text} {offsets : List Nat} {position : Nat}

/-- Where no offset falls nothing is written in. -/
theorem insertAt_append_of_absent {b : Text}
    (absent : ∀ place ∈ offsets, position ≤ place → position + Text.octets b ≤ place) (t : Text) :
    insertAt word offsets position (b ++ t) =
      b ++ insertAt word offsets (position + Text.octets b) t := by
  induction b generalizing position with
  | nil => rfl
  | cons c b ih =>
    have size : 0 < c.utf8Size := c.utf8Size_pos
    simp only [Text.octets_cons] at absent ⊢
    have here : position ∉ offsets := fun mem => by
      have := absent position mem (Nat.le_refl _)
      omega
    have further : insertAt word offsets (position + c.utf8Size) (b ++ t) =
        b ++ insertAt word offsets (position + c.utf8Size + Text.octets b) t := by
      refine ih fun place mem le => ?_
      have := absent place mem (by omega)
      omega
    rw [List.cons_append, insertAt, if_neg here, List.nil_append, further, Nat.add_assoc]
    rfl

theorem insertAt_nil (t : Text) : insertAt word [] position t = t := by
  induction t generalizing position with
  | nil => rfl
  | cons c t ih => exact congrArg (c :: ·) ih

/-- Only offsets from the position on count, and only which they are. -/
theorem insertAt_congr {offsets' : List Nat}
    (same : ∀ place, position ≤ place → (place ∈ offsets ↔ place ∈ offsets')) (t : Text) :
    insertAt word offsets position t = insertAt word offsets' position t := by
  induction t generalizing position with
  | nil => simp only [insertAt, same position (Nat.le_refl _)]
  | cons c t ih =>
    have rest : insertAt word offsets (position + c.utf8Size) t =
        insertAt word offsets' (position + c.utf8Size) t :=
      ih fun place le => same place (by omega)
    simp only [insertAt, same position (Nat.le_refl _), rest]

theorem insertAt_of_mem (mem : position ∈ offsets) (t : Text) :
    insertAt word offsets position t =
      word ++ insertAt word (offsets.filter (position < ·)) position t := by
  have absent : position ∉ offsets.filter (position < ·) := by simp
  cases t with
  | nil => rw [insertAt, insertAt, if_pos mem, if_neg absent, List.append_nil]
  | cons c t =>
    have size : 0 < c.utf8Size := c.utf8Size_pos
    have rest : insertAt word offsets (position + c.utf8Size) t =
        insertAt word (offsets.filter (position < ·)) (position + c.utf8Size) t := by
      refine insertAt_congr (fun place le => ?_) t
      have later : position < place := by omega
      simp [later]
    rw [insertAt, insertAt, if_pos mem, if_neg absent, List.nil_append, rest]

end InsertAt

/-! ## Cutting at offsets -/

/-- A text with a word between its parts at offsets that ascend from the position of its first
character, unless it cannot be cut at one of them. -/
def splice? (word : Text) : (position : Nat) → (offsets : List Nat) → Text → Option Text
  | _, [], t => some t
  | position, place :: offsets, t => do
    let (before, rest) ← Text.splitAtOctet? (place - position) t
    let behind ← splice? word place offsets rest
    return before ++ word ++ behind

/-- Whether an offset is the place of a part of a text. -/
def IsPlace (t : Text) (offset : Nat) : Prop :=
  ∃ before rest, t = before ++ rest ∧ Text.octets before = offset

/-- By induction on the offsets: what is left of the text has the other offsets as its places. -/
theorem splice?_eq_insertAt {word t : Text} {position : Nat} {offsets : List Nat}
    (ascending : offsets.Pairwise (· < ·))
    (places : ∀ place ∈ offsets, position ≤ place ∧ IsPlace t (place - position)) :
    splice? word position offsets t = some (insertAt word offsets position t) := by
  induction offsets generalizing position t with
  | nil =>
    have untouched : insertAt word [] position (t ++ []) =
        t ++ insertAt word [] (position + Text.octets t) [] :=
          insertAt_append_of_absent (fun _ mem => absurd mem List.not_mem_nil) []
    rw [List.append_nil] at untouched
    rw [splice?, untouched]
    simp [insertAt]
  | cons place offsets ih =>
    obtain ⟨later, ascending⟩ := List.pairwise_cons.1 ascending
    obtain ⟨⟨le, before, rest, rfl, size⟩, others⟩ := List.forall_mem_cons.1 places
    have reached : position + Text.octets before = place := by omega
    have tail : splice? word place offsets rest = some (insertAt word offsets place rest) :=
      ih ascending ?_
    · have inFront : insertAt word (place :: offsets) position (before ++ rest) =
          before ++ insertAt word (place :: offsets) place rest := by
        rw [insertAt_append_of_absent, reached]
        intro other mem _
        rw [reached]
        exact (List.mem_cons.1 mem).elim (fun h => Nat.le_of_eq h.symm)
          fun h => Nat.le_of_lt (later other h)
      have behind : (place :: offsets).filter (place < ·) = offsets := by
        rw [List.filter_cons_of_neg (by simp), List.filter_eq_self.2]
        exact fun other mem => decide_eq_true (later other mem)
      rw [inFront, insertAt_of_mem List.mem_cons_self, behind, splice?, ← size,
        Text.splitAtOctet?_append, Option.bind_eq_bind, Option.bind_some]
      dsimp only
      rw [tail, ← List.append_assoc]
      rfl
    · intro other mem
      obtain ⟨-, before', rest', whole, size'⟩ := others other mem
      have further : place < other := later other mem
      rcases List.append_eq_append_iff.1 whole with ⟨more, rfl, rfl⟩ | ⟨more, rfl, rfl⟩
      · rw [Text.octets_append] at size'
        exact ⟨Nat.le_of_lt further, more, rest', rfl, by omega⟩
      · rw [Text.octets_append] at size
        omega

/-! ## Writing in without a change to comments -/

/-- Offsets at which a word can be written into the rest of a source: each of them is the place of
an idle character of the code or of a string. -/
def WellPlaced (l : Language) (region : Region) (position : Nat) (offsets : List Nat)
    (t : Text) : Prop :=
  ∀ place ∈ offsets, position ≤ place → ∃ (before : Text) (c : Char) (rest : Text),
    t = before ++ c :: rest ∧ position + Text.octets before = place ∧
      (regionAt l region before (c :: rest)).Keeps ∧ Idle l c

namespace WellPlaced

variable {l : Language} {region next : Region} {position : Nat} {offsets : List Nat} {c : Char}
  {t : Text}

theorem not_mem_of_nil (placed : WellPlaced l region position offsets []) :
    position ∉ offsets := by
  intro mem
  obtain ⟨before, d, rest, whole, -⟩ := placed position mem (Nat.le_refl _)
  simp at whole

theorem head (placed : WellPlaced l region position offsets (c :: t)) (mem : position ∈ offsets) :
    region.Keeps ∧ Idle l c := by
  obtain ⟨before, d, rest, whole, size, keeps, idle⟩ := placed position mem (Nat.le_refl _)
  cases before with
  | nil =>
    obtain ⟨rfl, -⟩ := List.cons.inj whole
    exact ⟨keeps, idle⟩
  | cons e before =>
    have positive : 0 < e.utf8Size := e.utf8Size_pos
    rw [Text.octets_cons] at size
    omega

/-- No offset falls inside of a character. -/
theorem le_of_lt (placed : WellPlaced l region position offsets (c :: t)) {place : Nat}
    (mem : place ∈ offsets) (lt : position < place) : position + c.utf8Size ≤ place := by
  obtain ⟨before, d, rest, whole, size, -⟩ := placed place mem (Nat.le_of_lt lt)
  cases before with
  | nil =>
    rw [Text.octets_nil] at size
    omega
  | cons e before =>
    obtain ⟨rfl, -⟩ := List.cons.inj whole
    rw [Text.octets_cons] at size
    omega

theorem tail {kept : Bool} (placed : WellPlaced l region position offsets (c :: t))
    (step : Step l region c t kept next) :
    WellPlaced l next (position + c.utf8Size) offsets t := by
  intro place mem le
  have positive : 0 < c.utf8Size := c.utf8Size_pos
  obtain ⟨before, d, rest, whole, size, keeps, idle⟩ := placed place mem (by omega)
  cases before with
  | nil =>
    rw [Text.octets_nil] at size
    omega
  | cons e before =>
    obtain ⟨rfl, rfl⟩ := List.cons.inj whole
    rw [step.regionAt_eq] at keeps
    exact ⟨before, d, rest, rfl, by rw [← size, Text.octets_cons, Nat.add_assoc], keeps, idle⟩

end WellPlaced

/-- Neither the word nor what it is written in front of is the second character of a mark. -/
theorem head?_insertAt {l : Language} {region : Region} {position : Nat} {offsets : List Nat}
    {word t : Text} (idle : ∀ c ∈ word, Idle l c) (nonempty : word ≠ [])
    (placed : WellPlaced l region position offsets t) {d : Char} (mark : d ∈ ['/', '*']) :
    (insertAt word offsets position t).head? = some d ↔ t.head? = some d := by
  have notIdle : ¬ Idle l d := fun h => h.noMark (by
    simp only [List.mem_cons, List.not_mem_nil, or_false] at mark ⊢
    exact mark.elim (fun h => Or.inr (Or.inl h)) fun h => Or.inr (Or.inr (Or.inl h)))
  cases t with
  | nil => rw [insertAt, if_neg placed.not_mem_of_nil]
  | cons c t =>
    rw [insertAt]
    split
    · rename_i mem
      obtain ⟨e, word, rfl⟩ := List.exists_cons_of_ne_nil nonempty
      refine iff_of_false ?_ ?_
      · rintro same
        obtain rfl : e = d := Option.some.inj same
        exact notIdle (idle e List.mem_cons_self)
      · rintro same
        obtain rfl : c = d := Option.some.inj same
        exact notIdle (placed.head mem).2
    · exact Iff.rfl

/-- By induction on the source: with an idle word in front of an idle character a scan does as it
did without, and everywhere else it takes the same steps. -/
theorem stripFrom_insertAt {l : Language} (other : l ≠ .python) {word : Text}
    (idle : ∀ c ∈ word, Idle l c) (nonempty : word ≠ []) {region : Region}
    (belongs : region.Belongs l) {position : Nat} {offsets : List Nat} {t : Text}
    (placed : WellPlaced l region position offsets t) :
    stripFrom l region (insertAt word offsets position t) =
      insertAt word offsets position (stripFrom l region t) := by
  induction t generalizing region position with
  | nil =>
    have absent := placed.not_mem_of_nil
    rw [stripFrom_nil, insertAt, if_neg absent, stripFrom_nil]
  | cons c t ih =>
    obtain ⟨kept, next, step⟩ := exists_step l region c t
    have later := placed.tail step
    have rest := ih (step.belongs belongs) later
    by_cases mem : position ∈ offsets
    case pos =>
      obtain ⟨keeps, plain⟩ := placed.head mem
      have same : (kept, next) = (true, region.resumed) :=
        step.step_eq.symm.trans (plain.step keeps belongs t).step_eq
      obtain ⟨rfl, rfl⟩ := Prod.mk.inj same
      rw [insertAt, if_pos mem, stripFrom_idle_append idle nonempty keeps belongs,
        stripFrom_idle_cons plain keeps.resumed belongs.resumed, Region.resumed_resumed, rest,
        step.stripFrom_eq, if_pos rfl, List.singleton_append, insertAt, if_pos mem]
    case neg =>
      have step' : Step l region c (insertAt word offsets (position + c.utf8Size) t) kept next :=
        step.of_ahead other belongs fun d mark => head?_insertAt idle nonempty later mark
      have octets : Text.octets (if kept then [c] else blank c) = c.utf8Size := by
        cases kept with
        | true => exact Nat.add_zero _
        | false => exact octets_blank c
      rw [insertAt, if_neg mem, List.nil_append, step'.stripFrom_eq, step.stripFrom_eq, rest,
        insertAt_append_of_absent, octets]
      intro place mem' le
      rw [octets]
      refine placed.le_of_lt mem' (Nat.lt_of_le_of_ne le ?_)
      rintro rfl
      exact mem mem'

end HarnessSynthesis.TypedSource
