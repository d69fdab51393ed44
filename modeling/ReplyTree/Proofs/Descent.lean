import ReplyTree.Proofs.Admission
import ReplyTree.Proofs.Interchange

/- Positions that are issued one below the other. What is issued goes on from its parent by one
   ordinal, in the marks of the layout that issues and not in those of the parent. Down any path
   the results are the ancestors of the last one, so that every position can be reached by
   issuing. -/
namespace ReplyTree

variable {bound : Decimal.Bound} {l : Layout} {parent ordinal : Value} {p q c : Position}
  {above : List Nat} {n : Nat}

theorem Layout.path_of_issue (issued : (l.issue bound parent ordinal).result = .ok c) :
    ∃ n above, l.GivesPath bound parent above ∧ c.layout = l ∧ c.ordinals = above ++ [n] := by
  by_cases natural : ∃ n : Nat, ordinal = .ofNat n
  · obtain ⟨n, rfl⟩ := natural
    rcases path_or_refused bound l parent with ⟨above, path⟩ | ⟨given, fault, refused⟩
    · obtain ⟨fitting, overflowing⟩ := issue_of_path path n
      by_cases fits : n ≤ l.top
      · obtain ⟨d, found, layout, ordinals⟩ := fitting fits
        cases found.symm.trans issued
        exact ⟨n, above, path, layout, ordinals⟩
      · cases (overflowing (Nat.lt_of_not_le fits)).symm.trans issued
    · cases (issue_bad_parent given refused).symm.trans issued
  · cases (issue_bad_ordinal fun n same => natural ⟨n, same⟩).symm.trans issued

namespace Position

theorem same_iff_marks (width : q.layout.width = p.layout.width)
    (ordinals : q.ordinals = p.ordinals) :
    q.Same p ↔ q.layout.terminator = p.layout.terminator ∧
      (q.layout.separator = p.layout.separator ∨ p.depth = 0) := by
  have depth : q.depth = p.depth := by rw [depth, depth, ordinals]
  rw [same_iff, depth]
  exact ⟨fun same => same.2.2, fun marks => ⟨width, ordinals, marks⟩⟩

end Position

/-- What is issued lies below the position that was given. Its parent has the ordinals of that
    position and the marks of the layout that issues. -/
theorem issued_below_parent (issued : (l.issue bound parent ordinal).result = .ok c) :
    (parent = .nothing → c.parent? = none) ∧
    (parent ≠ .nothing → ∃ p q, (Position.ofValue bound parent (.named l)).result = .ok p ∧
      c.parent? = some q ∧ q.layout = l ∧ q.ordinals = p.ordinals ∧ p.Above c ∧
      (q.Same p ↔ l.terminator = p.layout.terminator ∧
        (l.separator = p.layout.separator ∨ p.depth = 0)) ∧
      ∀ s, parent = .text s → q = p) := by
  obtain ⟨n, above, path, rfl, ordinals⟩ := Layout.path_of_issue issued
  cases path with
  | top => exact ⟨fun _ => Position.parent_of_top ordinals, fun given => absurd rfl given⟩
  | @below _ p found =>
    have width := Position.width_of_value found
    have same_ordinals := Position.ordinals_of_path ordinals
    constructor
    · rintro rfl
      cases found
    · intro given
      refine ⟨p, c.upTo p.depth, found, Position.parent_of_path ordinals, rfl, same_ordinals,
        Position.above_of_path width ordinals, ?_, ?_⟩
      · exact Position.same_iff_marks width.symm same_ordinals
      · rintro s rfl
        have layout := (Position.text_of_read found).1
        exact Position.eq_of_ordinals layout.symm same_ordinals

theorem issued_below_root_of_other_separator :
    let dashed : Layout := { Layout.standard with separator := '-', separator_lt := by decide }
    let root : Position := ⟨.standard, [7], by decide, by decide⟩
    let reply : Position := ⟨dashed, [7, 3], by decide, by decide⟩
    (dashed.issue .standard (.position root) (.ofNat 3)).result = .ok reply ∧
      ∃ q, reply.parent? = some q ∧ q.layout = dashed ∧ q.Same root := by
  intro dashed root reply
  have issued : (dashed.issue .standard (.position root) (.ofNat 3)).result = .ok reply := rfl
  obtain ⟨p, q, found, parent, layout, _, _, same, _⟩ := (issued_below_parent issued).2 (by simp)
  cases found
  exact ⟨issued, q, parent, layout, same.mpr ⟨rfl, Or.inr rfl⟩⟩

theorem issued_below_reply_of_other_separator :
    let dashed : Layout := { Layout.standard with separator := '-', separator_lt := by decide }
    let p : Position := ⟨.standard, [1, 0], by decide, by decide⟩
    let c : Position := ⟨dashed, [1, 0, 5], by decide, by decide⟩
    let q : Position := ⟨dashed, [1, 0], by decide, by decide⟩
    (dashed.issue .standard (.position p) (.ofNat 5)).result = .ok c ∧ c.parent? = some q ∧
      ¬ q.Same p :=
  ⟨rfl, rfl, by decide⟩

def Position.handed (p : Position) (asText : Bool) : Value :=
  if asText then .text p.text else .position p

/-- Issues positions one below the other, the first below a given parent. Each comes with the
    form in which it is handed on as the parent of the next. -/
def Layout.issueDown (bound : Decimal.Bound) (l : Layout) (parent : Value) :
    List (Nat × Bool) → Outcome (List Position)
  | [] => pure []
  | (n, asText) :: rest => do
    let p ← l.issue bound parent (.ofNat n)
    let ps ← l.issueDown bound (p.handed asText) rest
    return p :: ps

theorem Position.handed_denotes (p : Position) (asText : Bool) :
    p.layout.Denotes (p.handed asText) p := by
  cases asText with
  | false => exact ⟨rfl, Or.inl rfl⟩
  | true => exact ⟨rfl, Or.inr rfl⟩

theorem Position.handed_gives_path (p : Position) (asText : Bool)
    (short : bound.exceeded? p.layout.width = none) :
    p.layout.GivesPath bound (p.handed asText) p.ordinals := by
  apply Layout.GivesPath.below
  rw [(p.handed_denotes asText).read short]
  rfl

theorem Position.issue_down (p : Position) (short : bound.exceeded? p.layout.width = none)
    {steps : List (Nat × Bool)} (given : p.layout.GivesPath bound parent above)
    (path : p.ordinals = above ++ steps.map Prod.fst) :
    (p.layout.issueDown bound parent steps).result =
      .ok ((List.range steps.length).map fun i => p.upTo (above.length + i)) := by
  -- Each result is the parent of the next, so the parent and its path vary along the steps.
  induction steps generalizing parent above with
  | nil => rfl
  | cons step rest ih =>
    obtain ⟨n, asText⟩ := step
    have fits : n ≤ p.layout.top :=
      (p.layout.lt_capacity_iff n).mp (p.fits n (by rw [path]; simp))
    obtain ⟨c, issued, layout, ordinals⟩ := (Layout.issue_of_path given n).1 fits
    have path' : p.ordinals = (above ++ [n]) ++ rest.map Prod.fst := by
      rw [path, List.map_cons, List.append_cons]
    have first : c = p.upTo above.length := by
      refine eq_of_ordinals layout ?_
      rw [ordinals, ordinals_upTo, path']
      exact (List.take_left' (by simp)).symm
    have next : p.layout.GivesPath bound (c.handed asText) (above ++ [n]) := by
      rw [← ordinals, ← layout]
      exact c.handed_gives_path asText (by rw [layout]; exact short)
    have later := ih next path'
    simp only [List.length_append, List.length_singleton, Nat.add_assoc, Nat.add_comm 1] at later
    rw [Layout.issueDown, Outcome.bind_of_ok issued, Outcome.bind_of_ok later, List.length_cons,
      List.range_succ_eq_map, List.map_cons, List.map_map, first]
    rfl

theorem Position.range_up_to (p : Position) :
    (List.range (p.depth + 1)).map p.upTo = p.ancestors.reverse ++ [p] := by
  rw [List.range_succ, List.map_append, List.map_singleton, p.upTo_depth, ancestors,
    ← List.map_reverse, List.reverse_reverse]

/-- Issuing along any path of ordinals that fit gives the position that is built from them, after
    its ancestors from the root down, in whatever forms the parents are handed on. -/
def Layout.Rebuilds (bound : Decimal.Bound) (l : Layout) : Prop :=
  ∀ steps : List (Nat × Bool), steps ≠ [] → (∀ step ∈ steps, step.1 ≤ l.top) →
    ∃ p, Position.build ((steps.map Prod.fst).map .ofNat) (.named l) = .ok p ∧
      p.depth + 1 = steps.length ∧
      (l.issueDown bound .nothing steps).result = .ok (p.ancestors.reverse ++ [p])

theorem Layout.rebuilds_of_short (short : bound.exceeded? l.width = none) : l.Rebuilds bound := by
  intro steps nonempty small
  have fits : ∀ n ∈ steps.map Prod.fst, n < l.capacity := by
    intro n member
    obtain ⟨step, inside, rfl⟩ := List.mem_map.mp member
    exact (l.lt_capacity_iff _).mpr (small step inside)
  let p : Position := ⟨l, steps.map Prod.fst, by simpa using nonempty, fits⟩
  have length : p.depth + 1 = steps.length := by
    rw [← p.length_ordinals]
    exact List.length_map _
  have down := p.issue_down short Layout.GivesPath.top rfl
  simp only [List.length_nil, Nat.zero_add, ← length] at down
  refine ⟨p, l.build_ok p.nonempty fits, length, ?_⟩
  rw [← p.range_up_to]
  exact down

theorem Layout.short_of_rebuilds (rebuilds : l.Rebuilds bound) :
    bound.exceeded? l.width = none := by
  -- A path of two can be issued, so the text of a root has to be read.
  obtain ⟨p, _, _, down⟩ := rebuilds [(0, true), (0, true)] (by simp) (by simp)
  obtain ⟨root, _, rest⟩ := Outcome.ok_of_bind down
  obtain ⟨_, below, _⟩ := Outcome.ok_of_bind rest
  obtain ⟨reply, issued, _⟩ := Outcome.ok_of_bind below
  obtain ⟨_, _, path, _⟩ := Layout.path_of_issue issued
  cases path with
  | below found => exact Position.short_of_read found

/-- Every position is reached by issuing along its ordinals, with its ancestors on the way, wherever
    numerals of the width are converted. -/
theorem path_is_rebuilt (bound : Decimal.Bound) (l : Layout) :
    l.Rebuilds .unbounded ∧ (l.Rebuilds bound ↔ bound.exceeded? l.width = none) :=
  ⟨Layout.rebuilds_of_short rfl, Layout.short_of_rebuilds, Layout.rebuilds_of_short⟩

end ReplyTree
