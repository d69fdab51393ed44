import Mathlib.Data.List.Perm.Basic
import ReplyTree.Position.Acceptance

/- Lists of values that are read one after the other. Either all of them give positions, or the
   list is given up at the first that gives none, whatever comes after it. -/
namespace ReplyTree

variable {bound : Decimal.Bound} {choice : LayoutChoice} {v : Value} {p : Position}
  {items items' front back : List Value} {ps qs : List Position} {fault : Fault}

def Yields (bound : Decimal.Bound) (choice : LayoutChoice) (v : Value) (p : Position) : Prop :=
  (Position.ofValue bound v choice).result = .ok p

abbrev YieldsAll (bound : Decimal.Bound) (choice : LayoutChoice) :
    List Value → List Position → Prop :=
  List.Forall₂ (Yields bound choice)

def FirstRefused (bound : Decimal.Bound) (choice : LayoutChoice) (items : List Value)
    (fault : Fault) : Prop :=
  ∃ front v back ps, items = front ++ v :: back ∧ YieldsAll bound choice front ps ∧
    (Position.ofValue bound v choice).result = .error fault

theorem yields_unique : Relator.RightUnique (Yields bound choice) := by
  intro v p q first second
  exact Except.ok.inj (first.symm.trans second)

theorem YieldsAll.unique (first : YieldsAll bound choice items ps)
    (second : YieldsAll bound choice items qs) : ps = qs :=
  List.right_unique_forall₂' yields_unique first second

theorem YieldsAll.perm (yields : YieldsAll bound choice items ps) (perm : items.Perm items') :
    ∃ qs, YieldsAll bound choice items' qs ∧ ps.Perm qs := by
  obtain ⟨qs, yields', perm'⟩ := List.perm_comp_forall₂ perm.symm yields
  exact ⟨qs, yields', perm'.symm⟩

theorem YieldsAll.append (first : YieldsAll bound choice front ps)
    (second : YieldsAll bound choice back qs) : YieldsAll bound choice (front ++ back) (ps ++ qs) :=
  List.rel_append first second

theorem forall_of_forall₂ {α β : Type} {related : α → β → Prop} {keep : β → Prop} {xs : List α}
    {ys : List β} (matched : List.Forall₂ related xs ys) (kept : ∀ x y, related x y → keep y) :
    ∀ y ∈ ys, keep y := by
  induction matched with
  | nil => simp
  | cons head _ ih => exact List.forall_mem_cons.mpr ⟨kept _ _ head, ih⟩

theorem yields_positions (kept : ∀ p ∈ ps, Yields bound choice (.position p) p) :
    YieldsAll bound choice (ps.map .position) ps := by
  apply List.forall₂_map_left_iff.mpr
  exact List.forall₂_same.mpr kept

theorem YieldsAll.split (yields : YieldsAll bound choice (front ++ v :: back) ps) :
    ∃ qs p rs, ps = qs ++ p :: rs ∧ YieldsAll bound choice front qs ∧ Yields bound choice v p := by
  induction front generalizing ps with
  | nil =>
    cases yields with
    | cons head _ => exact ⟨[], _, _, rfl, .nil, head⟩
  | cons w front ih =>
    cases yields with
    | cons head tail =>
      obtain ⟨qs, p, rs, rfl, before, here⟩ := ih tail
      exact ⟨_ :: qs, p, rs, rfl, .cons head before, here⟩

theorem of_values_read (yields : YieldsAll bound choice items ps) :
    (Position.ofValues bound choice items).result = .ok ps := by
  induction yields with
  | nil => rfl
  | cons head _ ih => rw [Position.ofValues, Outcome.bind_of_ok head, Outcome.bind_of_ok ih,
      Outcome.result_pure]

theorem of_values_refused (refused : FirstRefused bound choice items fault) :
    (Position.ofValues bound choice items).result = .error fault := by
  obtain ⟨front, v, back, ps, rfl, yields, error⟩ := refused
  induction yields with
  | nil => rw [List.nil_append, Position.ofValues, Outcome.bind_of_error error]
  | cons head _ ih => rw [List.cons_append, Position.ofValues, Outcome.bind_of_ok head,
      Outcome.bind_of_error ih]

theorem read_or_refused (bound : Decimal.Bound) (choice : LayoutChoice) (items : List Value) :
    (∃ ps, YieldsAll bound choice items ps) ∨ ∃ fault, FirstRefused bound choice items fault := by
  induction items with
  | nil => exact Or.inl ⟨[], .nil⟩
  | cons v rest ih =>
    cases outcome : (Position.ofValue bound v choice).result with
    | error fault => exact Or.inr ⟨fault, [], v, rest, [], rfl, .nil, outcome⟩
    | ok p =>
      rcases ih with ⟨ps, yields⟩ | ⟨fault, front, w, back, ps, rfl, yields, error⟩
      · exact Or.inl ⟨p :: ps, .cons outcome yields⟩
      · exact Or.inr ⟨fault, v :: front, w, back, p :: ps, rfl, .cons outcome yields, error⟩

theorem of_values_ok_iff :
    (Position.ofValues bound choice items).result = .ok ps ↔ YieldsAll bound choice items ps := by
  constructor
  · intro ok
    rcases read_or_refused bound choice items with ⟨qs, yields⟩ | ⟨fault, refused⟩
    · cases (of_values_read yields).symm.trans ok
      exact yields
    · cases (of_values_refused refused).symm.trans ok
  · exact of_values_read

theorem of_values_error_iff :
    (Position.ofValues bound choice items).result = .error fault ↔
      FirstRefused bound choice items fault := by
  constructor
  · intro error
    rcases read_or_refused bound choice items with ⟨qs, yields⟩ | ⟨fault', refused⟩
    · cases (of_values_read yields).symm.trans error
    · cases (of_values_refused refused).symm.trans error
      exact refused
  · exact of_values_refused

end ReplyTree
