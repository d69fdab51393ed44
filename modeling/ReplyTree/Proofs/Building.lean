import ReplyTree.Proofs.RoundTrip

/- What building a position from values of any kind comes to. The values are examined from the left,
   so that the first which is no ordinal of the layout decides what is blamed, whatever comes after
   it. -/
namespace ReplyTree.Layout

variable {l : Layout} {items front rest : List Value} {v : Value} {n : Nat} {fault : Fault}
  {p : Position} {answer : Except Fault Position}

def Admits (l : Layout) (v : Value) : Prop := ∃ n : Nat, v = .ofNat n ∧ n ≤ l.top

theorem admits_ordinals {ns : List Nat} (fits : ∀ n ∈ ns, n < l.capacity) :
    ∀ v ∈ ns.map Value.ofNat, l.Admits v := by
  intro v member
  obtain ⟨n, inside, rfl⟩ := List.mem_map.mp member
  exact ⟨n, rfl, (l.lt_capacity_iff n).mp (fits n inside)⟩

theorem ordinals_of_admitted (admitted : ∀ v ∈ items, l.Admits v) :
    ∃ ns : List Nat, items = ns.map .ofNat ∧ ∀ n ∈ ns, n < l.capacity := by
  induction items with
  | nil => exact ⟨[], rfl, l.nil_fits⟩
  | cons v rest ih =>
    obtain ⟨⟨n, rfl, fits⟩, others⟩ := List.forall_mem_cons.mp admitted
    obtain ⟨ns, rfl, below⟩ := ih others
    exact ⟨n :: ns, rfl, List.forall_mem_cons.mpr ⟨(l.lt_capacity_iff n).mpr fits, below⟩⟩

theorem admitted_or_first (l : Layout) (items : List Value) :
    (∀ v ∈ items, l.Admits v) ∨
      ∃ front v rest, items = front ++ v :: rest ∧ (∀ w ∈ front, l.Admits w) ∧ ¬ l.Admits v := by
  induction items with
  | nil => exact Or.inl (by simp)
  | cons v rest ih =>
    by_cases head : l.Admits v
    · rcases ih with others | ⟨front, w, back, rfl, before, unfit⟩
      · exact Or.inl (List.forall_mem_cons.mpr ⟨head, others⟩)
      · exact Or.inr ⟨v :: front, w, back, rfl, List.forall_mem_cons.mpr ⟨head, before⟩, unfit⟩
    · exact Or.inr ⟨[], v, rest, rfl, by simp, head⟩

theorem check_ordinals_error {all : List Value} {depth : Nat}
    (admitted : ∀ w ∈ front, l.Admits w)
    (refused : l.checkOrdinals all (depth + front.length) rest = .error fault) :
    l.checkOrdinals all depth (front ++ rest) = .error fault := by
  induction front generalizing depth with
  | nil => exact refused
  | cons w front ih =>
    obtain ⟨⟨n, rfl, fits⟩, others⟩ := List.forall_mem_cons.mp admitted
    have below : n < l.capacity := (l.lt_capacity_iff n).mpr fits
    -- A value that is passed over moves the next one a level down.
    rw [List.length_cons, Nat.add_comm front.length, ← Nat.add_assoc] at refused
    simp only [List.cons_append, checkOrdinals, Value.natural_ofNat, dif_pos below,
      ih others refused]

theorem build_error (admitted : ∀ w ∈ front, l.Admits w)
    (refused : l.checkOrdinals (front ++ v :: rest) front.length (v :: rest) = .error fault) :
    l.build (front ++ v :: rest) = .error fault := by
  rw [← Nat.zero_add front.length] at refused
  simp only [build, check_ordinals_error admitted refused]

theorem build_too_large (admitted : ∀ w ∈ front, l.Admits w) (large : l.top < n)
    (rest : List Value) :
    l.build (front ++ .ofNat n :: rest) = .error (.overflow n l.width front.length) := by
  apply build_error admitted
  have outside : ¬ n < l.capacity := by
    rw [l.lt_capacity_iff]
    omega
  simp only [checkOrdinals, Value.natural_ofNat, dif_neg outside]

theorem build_unfit (admitted : ∀ w ∈ front, l.Admits w) (unfit : ∀ n : Nat, v ≠ .ofNat n)
    (rest : List Value) :
    l.build (front ++ v :: rest) =
      .error (.malformed (.tuple (front ++ v :: rest)) (.badOrdinal v)) := by
  apply build_error admitted
  simp only [checkOrdinals, Value.natural_eq_none.mpr unfit]

/-- What is built from values of any kind. The first value that is not admitted is blamed: for its
    size, with its depth, if it is a number, and else as spoiling them all. -/
inductive Builds (l : Layout) (items : List Value) : Except Fault Position → Prop
  | empty : items = [] → Builds l items (.error (.malformed (.tuple items) .noOrdinals))
  | tooLarge {front rest : List Value} {n : Nat} : items = front ++ .ofNat n :: rest →
      (∀ w ∈ front, l.Admits w) → l.top < n →
        Builds l items (.error (.overflow n l.width front.length))
  | unfit {front rest : List Value} {v : Value} : items = front ++ v :: rest →
      (∀ w ∈ front, l.Admits w) → (∀ n : Nat, v ≠ .ofNat n) →
        Builds l items (.error (.malformed (.tuple items) (.badOrdinal v)))
  | built {p : Position} : p.layout = l → items = p.ordinals.map .ofNat →
      Builds l items (.ok p)

theorem Builds.result (builds : l.Builds items answer) : l.build items = answer := by
  cases builds with
  | empty none =>
    subst none
    rfl
  | tooLarge split admitted large =>
    subst split
    exact build_too_large admitted large _
  | unfit split admitted unnatural =>
    subst split
    exact build_unfit admitted unnatural _
  | built layout ordinals =>
    subst layout ordinals
    exact build_ok _ _ _

theorem builds_of_admitted (nonempty : items ≠ []) (admitted : ∀ v ∈ items, l.Admits v) :
    ∃ p, l.Builds items (.ok p) := by
  obtain ⟨ns, rfl, fits⟩ := ordinals_of_admitted admitted
  have some_ordinal : ns ≠ [] := by
    rintro rfl
    exact nonempty rfl
  exact ⟨⟨l, ns, some_ordinal, fits⟩, .built rfl rfl⟩

theorem builds_exists (l : Layout) (items : List Value) : ∃ answer, l.Builds items answer := by
  by_cases none : items = []
  · exact ⟨_, .empty none⟩
  · rcases l.admitted_or_first items with admitted | ⟨front, v, rest, split, admitted, unfit⟩
    · obtain ⟨p, builds⟩ := builds_of_admitted none admitted
      exact ⟨_, builds⟩
    · by_cases number : ∃ n : Nat, v = .ofNat n
      · obtain ⟨n, rfl⟩ := number
        have large : l.top < n := Nat.lt_of_not_le fun fits => unfit ⟨n, rfl, fits⟩
        exact ⟨_, .tooLarge split admitted large⟩
      · exact ⟨_, .unfit split admitted fun n same => number ⟨n, same⟩⟩

theorem build_iff_builds (l : Layout) (items : List Value) (answer : Except Fault Position) :
    l.build items = answer ↔ l.Builds items answer := by
  exact answer_iff (fun _ => Builds.result) (builds_exists l items) answer

theorem Builds.family (builds : l.Builds items (.error fault)) :
    (fault.family = .overflow ↔ ∃ front n rest, items = front ++ .ofNat n :: rest ∧
      (∀ w ∈ front, l.Admits w) ∧ l.top < n) ∧
    (fault.family = .overflow ∨ fault.family = .malformed) := by
  refine ⟨⟨?_, ?_⟩, ?_⟩
  · intro overflow
    cases builds with
    | empty _ => cases overflow
    | tooLarge split admitted large => exact ⟨_, _, _, split, admitted, large⟩
    | unfit _ _ _ => cases overflow
  · rintro ⟨front, n, rest, split, admitted, large⟩
    have overflow := (Builds.tooLarge split admitted large).result
    cases builds.result.symm.trans overflow
    rfl
  · cases builds with
    | tooLarge _ _ _ => exact Or.inl rfl
    | _ => exact Or.inr rfl

/-- A position is built exactly if there is a value and all of them are whole numbers from zero to
    the largest ordinal. Otherwise the first that is not decides, whatever follows it. -/
theorem building_blames_leftmost (l : Layout) (items : List Value)
    (answer : Except Fault Position) :
    (Position.build items (.named l) = answer ↔ l.Builds items answer) ∧
    ((∃ p, Position.build items (.named l) = .ok p) ↔
      items ≠ [] ∧ ∀ v ∈ items, l.Admits v) ∧
    ∀ fault, Position.build items (.named l) = .error fault →
      (fault.family = .overflow ↔ ∃ front n rest, items = front ++ .ofNat n :: rest ∧
        (∀ w ∈ front, l.Admits w) ∧ l.top < n) ∧
      (fault.family = .overflow ∨ fault.family = .malformed) := by
  refine ⟨build_iff_builds l items answer, ⟨?_, ?_⟩, ?_⟩
  · rintro ⟨p, built⟩
    cases (build_iff_builds l items _).mp built with
    | built layout ordinals =>
      subst layout ordinals
      exact ⟨by simp [p.nonempty], admits_ordinals p.fits⟩
  · rintro ⟨nonempty, admitted⟩
    obtain ⟨p, builds⟩ := builds_of_admitted nonempty admitted
    exact ⟨p, builds.result⟩
  · intro fault refused
    exact ((build_iff_builds l items _).mp refused).family

end ReplyTree.Layout
