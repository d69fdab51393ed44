import ReplyTree.Proofs.Store

/- Every store that changes lead to is consistent, and what is added to one comes out where a
   reader looks for it: at the end of its subtree if the oldest come first, and directly below
   its parent if the newest do. -/
namespace ReplyTree.Store

variable {bound : Decimal.Bound} {l : Layout} {store : Store} {place : Place}
  {p q c : Position}

theorem Distinct.perm {store' : Store} (distinct : store.Distinct) (perm : store.Perm store') :
    store'.Distinct := by
  refine perm.pairwise distinct ?_
  intro p q differ same
  exact differ same.symm

theorem Consistent.empty : Consistent l [] :=
  ⟨by simp, List.Pairwise.nil, by simp [Rooted]⟩

theorem Consistent.reorder {store' : Store} (consistent : store.Consistent l)
    (perm : store.Perm store') : store'.Consistent l where
  layouts := fun p member => consistent.layouts p (perm.mem_iff.mpr member)
  distinct := consistent.distinct.perm perm
  rooted := by
    intro p member q parent
    obtain ⟨k, listed, same⟩ := consistent.rooted p (perm.mem_iff.mpr member) q parent
    exact ⟨k, perm.mem_iff.mp listed, same⟩

theorem Consistent.delete (consistent : store.Consistent l) (p : Position) :
    (store.delete p).Consistent l where
  layouts := fun q member => consistent.layouts q (List.mem_filter.mp member).1
  distinct := consistent.distinct.filter _
  rooted := by
    intro q member parent isParent
    obtain ⟨stored, outside⟩ := List.mem_filter.mp member
    obtain ⟨k, listed, same⟩ := consistent.rooted q stored parent isParent
    have below : k.Above q := by
      obtain ⟨deep, rfl⟩ := Position.parent_eq_some.mp isParent
      exact (Position.upTo_above (by omega)).of_same same.symm rfl
    -- A parent inside the deleted subtree would take its reply along.
    refine ⟨k, List.mem_filter.mpr ⟨listed, ?_⟩, same⟩
    simp only [Bool.not_eq_true', decide_eq_false_iff_not] at outside ⊢
    intro covers
    rcases covers with equal | above
    · exact outside (Or.inr (below.of_same equal.symm rfl))
    · exact outside (Or.inr (above.trans below))

theorem Next.unstored (next : store.Next l place c) (consistent : store.Consistent l)
    (held : store.Holds place) : ∀ q ∈ store, ¬ q.Same c := by
  intro q member same
  obtain ⟨_, ordinals, _⟩ := (Position.same_iff q c).mp same
  have covers : place.Covers q :=
    Place.covers_of_ordinals (consistent.place_in held) (consistent.layouts q member)
      (by rw [ordinals, next.path]; exact List.prefix_append _ _)
  rcases next.left consistent held member covers with rfl | left
  · have path := next.path
    rw [Place.ordinals, ordinals] at path
    simp at path
  · have less := left.letters_lt
    rw [(same : q.letters = c.letters)] at less
    exact List.lt_irrefl _ less

theorem Next.consistent (next : store.Next l place c) (consistent : store.Consistent l)
    (held : store.Holds place) : Consistent l (store ++ [c]) where
  layouts := by
    intro q member
    rcases List.mem_append.mp member with stored | new
    · exact consistent.layouts q stored
    · rw [List.mem_singleton.mp new]
      exact next.layout
  distinct := by
    refine List.pairwise_append.mpr ⟨consistent.distinct, List.pairwise_singleton _ _, ?_⟩
    intro q stored c' new
    rw [List.mem_singleton.mp new]
    exact next.unstored consistent held q stored
  rooted := by
    intro q member parent isParent
    rcases List.mem_append.mp member with stored | new
    · obtain ⟨k, listed, same⟩ := consistent.rooted q stored parent isParent
      exact ⟨k, List.mem_append_left _ listed, same⟩
    · rw [List.mem_singleton.mp new, next.parent (consistent.place_in held)] at isParent
      exact ⟨parent, List.mem_append_left _ (held parent isParent), rfl⟩

theorem Consistent.after (consistent : store.Consistent l) {change : Change}
    (allowed : store.Allows change) : (store.after bound l change).Consistent l := by
  cases change with
  | add place =>
    obtain ⟨n, _, overflow, added⟩ := consistent.add_spec allowed bound
    by_cases full : store.Full l place
    · rw [(overflow full).2]
      exact consistent
    · obtain ⟨c, _, next, grown⟩ := added full
      rw [grown]
      exact next.consistent consistent allowed
  | delete p => exact consistent.delete p

theorem Reachable.consistent (reached : Reachable bound l store) : store.Consistent l := by
  induction reached with
  | empty => exact Consistent.empty
  | step change _ allowed ih => exact ih.after allowed
  | reorder _ perm ih => exact ih.reorder perm

/-- What adding `c` below a place comes to. It is new, its parent is the place, and in both
    listings of the grown store it stands where its subtree ends or begins. -/
structure Grown (bound : Decimal.Bound) (store : Store) (place : Place) (c : Position)
    (grown : Store) : Prop where
  new : ∀ q ∈ store, ¬ q.Same c
  parent : c.parent? = place
  stored : grown = store ++ [c]
  last : ∃ front back,
    (arrangeValues bound false .unset (grown.map .position)).result = .ok (front ++ c :: back) ∧
      ∀ q ∈ back, ¬ place.Covers q
  first : ∃ front back,
    (arrangeValues bound true .unset (grown.map .position)).result = .ok (front ++ c :: back) ∧
      front.getLast? = place

theorem Consistent.shared_marks (consistent : store.Consistent l) : SharedMarks store := by
  intro p member q member'
  exact .of_layout ((consistent.layouts p member).trans (consistent.layouts q member').symm)

section Listed

variable {newestFirst : Bool} {front back : List Position}

theorem stored_of_split (split : arrange newestFirst (store ++ [c]) = front ++ c :: back) :
    (front ++ back).Perm store := by
  have perm := arrange_perm newestFirst (store ++ [c])
  rw [split] at perm
  have whole := perm.trans (List.perm_append_singleton c store)
  exact (List.perm_middle.symm.trans whole).cons_inv

theorem ordered_of_split (split : arrange newestFirst (store ++ [c]) = front ++ c :: back) :
    Ordered newestFirst (front ++ c :: back) := by
  rw [← split]
  exact arrange_ordered newestFirst _

theorem shared_of_split (split : arrange newestFirst (store ++ [c]) = front ++ c :: back)
    (consistent : Consistent l (store ++ [c])) : SharedMarks (front ++ c :: back) := by
  intro p member q member'
  rw [← split] at member member'
  exact consistent.shared_marks p (mem_arrange.mp member) q (mem_arrange.mp member')

theorem Next.above_parent (next : store.Next l (some p) c) (inside : Place.In (some p) l) :
    p.Above c := by
  obtain ⟨deep, rfl⟩ := Position.parent_eq_some.mp (next.parent inside)
  exact Position.upTo_above (by omega)

theorem Next.parent_precedes (next : store.Next l (some p) c)
    (consistent : store.Consistent l) (held : store.Holds (some p)) :
    p.Precedes newestFirst c := by
  have above := next.above_parent (consistent.place_in held)
  have shared := (next.consistent consistent held).shared_marks
  exact above.precedes (shared p (List.mem_append_left _ (held p rfl)) c (by simp))

theorem Next.parent_before (next : store.Next l (some p) c) (consistent : store.Consistent l)
    (held : store.Holds (some p))
    (split : arrange newestFirst (store ++ [c]) = front ++ c :: back) : p ∈ front := by
  refine mem_front_of_precedes (ordered_of_split split) ?_
    (next.parent_precedes consistent held)
  rw [← split]
  exact mem_arrange.mpr (List.mem_append_left _ (held p rfl))

theorem Next.last_below (next : store.Next l place c) (consistent : store.Consistent l)
    (held : store.Holds place) (split : arrange false (store ++ [c]) = front ++ c :: back) :
    ∀ q ∈ back, ¬ place.Covers q := by
  intro q behind covers
  have member := (stored_of_split split).mem_iff.mp (List.mem_append_right front behind)
  have tail := (List.pairwise_append.mp (ordered_of_split split)).2.1
  have order : ¬ q.Precedes false c := (List.pairwise_cons.mp tail).1 q behind
  rcases next.left consistent held member covers with rfl | left
  · exact order (next.parent_precedes consistent held)
  · exact order (left.precedes false)

theorem Next.covers_before {outer : List Position} (next : store.Next l place c)
    (consistent : store.Consistent l) (held : store.Holds place)
    (split : arrange newestFirst (store ++ [c]) = outer ++ [q] ++ c :: back) :
    place.Covers q := by
  cases place with
  | none => trivial
  | some p =>
    rcases List.mem_append.mp (next.parent_before consistent held split) with earlier | nearest
    · obtain ⟨outer, between, rfl⟩ := List.append_of_mem earlier
      have regrouped : outer ++ p :: between ++ [q] ++ c :: back =
          outer ++ p :: (between ++ [q]) ++ c :: back := by simp
      have sub : [p, q, c].Sublist (outer ++ p :: between ++ [q] ++ c :: back) := by
        rw [regrouped]
        exact sublist_of_split (by simp)
      have shared := shared_of_split split (next.consistent consistent held)
      have above := next.above_parent (consistent.place_in held)
      exact between_of_ordered (ordered_of_split split) shared p p q c sub (Or.inl rfl)
        (Or.inr above)
    · rw [List.mem_singleton.mp nearest]
      exact Or.inl rfl

theorem Next.first_below (next : store.Next l place c) (consistent : store.Consistent l)
    (held : store.Holds place) (split : arrange true (store ++ [c]) = front ++ c :: back) :
    front.getLast? = place := by
  rcases List.eq_nil_or_concat front with rfl | ⟨outer, q, rfl⟩
  · cases place with
    | none => rfl
    | some p =>
      have before := next.parent_before consistent held split
      exact absurd before List.not_mem_nil
  · rw [List.concat_eq_append] at split ⊢
    have member := (stored_of_split split).mem_iff.mp (by simp : q ∈ outer ++ [q] ++ back)
    have covers := next.covers_before consistent held split
    have order : ¬ c.Precedes true q :=
      (List.pairwise_append.mp (ordered_of_split split)).2.2 q (by simp) c (by simp)
    rcases next.left consistent held member covers with rfl | left
    · exact List.getLast?_concat
    · exact absurd (left.precedes true) order

end Listed

theorem Next.grown (next : store.Next l place c) (consistent : store.Consistent l)
    (held : store.Holds place) : Grown bound store place c (store ++ [c]) := by
  have listed (newestFirst : Bool) : c ∈ arrange newestFirst (store ++ [c]) :=
    mem_arrange.mpr (by simp)
  refine ⟨next.unstored consistent held, next.parent (consistent.place_in held), rfl, ?_, ?_⟩
  · obtain ⟨front, back, split⟩ := List.append_of_mem (listed false)
    exact ⟨front, back, by rw [listed_of_positions, split],
      next.last_below consistent held split⟩
  · obtain ⟨front, back, split⟩ := List.append_of_mem (listed true)
    exact ⟨front, back, by rw [listed_of_positions, split],
      next.first_below consistent held split⟩

/-- In a store that changes lead to, a place gets its next child until the last ordinal is taken. -/
theorem reachable_store_grows (reached : Reachable bound l store) :
    store.Distinct ∧ Rooted store ∧ ∀ place, store.Holds place →
      ∃ n, (store.fresh bound l place).result = .ok n ∧
        (store.Full l place →
          (l.issue bound place.value (.ofNat n)).result =
              .error (.overflow n l.width place.ordinals.length) ∧
            store.after bound l (.add place) = store) ∧
        (¬ store.Full l place →
          ∃ c, (l.issue bound place.value (.ofNat n)).result = .ok c ∧
            Grown bound store place c (store.after bound l (.add place))) := by
  have consistent := reached.consistent
  refine ⟨consistent.distinct, consistent.rooted, ?_⟩
  intro place held
  obtain ⟨n, found, overflow, added⟩ := consistent.add_spec held bound
  refine ⟨n, found, overflow, ?_⟩
  intro free
  obtain ⟨c, issued, next, grown⟩ := added free
  rw [grown]
  exact ⟨c, issued, next.grown consistent held⟩

theorem store_grows_after_deletion :
    let root : Position := ⟨.standard, [0], by decide, by decide⟩
    let later : Position := ⟨.standard, [0, 1], by decide, by decide⟩
    let latest : Position := ⟨.standard, [0, 2], by decide, by decide⟩
    Reachable .unbounded .standard [root, later] ∧ Holds [root, later] (some root) ∧
      ¬ Full .standard [root, later] (some root) ∧
      Grown .unbounded [root, later] (some root) latest [root, later, latest] := by
  intro root later latest
  let reply : Position := ⟨.standard, [0, 0], by decide, by decide⟩
  have one : Reachable .unbounded .standard [root] := by
    have change : after .unbounded .standard [] (.add none) = [root] := by decide
    rw [← change]
    exact Reachable.step (.add none) Reachable.empty fun p absent => by cases absent
  have two : Reachable .unbounded .standard [root, reply] := by
    have change : after .unbounded .standard [root] (.add (some root)) = [root, reply] := by decide
    rw [← change]
    exact Reachable.step (.add (some root)) one fun p named => by cases named; simp
  have three : Reachable .unbounded .standard [root, reply, later] := by
    have change : after .unbounded .standard [root, reply] (.add (some root)) =
        [root, reply, later] := by decide
    rw [← change]
    exact Reachable.step (.add (some root)) two fun p named => by cases named; simp
  have reached : Reachable .unbounded .standard [root, later] := by
    have change : after .unbounded .standard [root, reply, later] (.delete reply) =
        [root, later] := by decide
    rw [← change]
    exact Reachable.step (.delete reply) three (by simp [Allows])
  have held : Holds [root, later] (some root) := fun p named => by cases named; simp
  have free : ¬ Full .standard [root, later] (some root) := by
    have children : children [root, later] (some root) = [later] := by decide
    simp only [Full, children, List.mem_singleton, exists_eq_left]
    decide
  obtain ⟨_, _, grows⟩ := reachable_store_grows reached
  obtain ⟨n, _, _, added⟩ := grows (some root) held
  obtain ⟨c, _, grown⟩ := added free
  have change : after .unbounded .standard [root, later] (.add (some root)) =
      [root, later, latest] := by decide
  rw [change] at grown
  have new : latest = c := by simpa using grown.stored
  rw [← new] at grown
  exact ⟨reached, held, free, grown⟩

end ReplyTree.Store
