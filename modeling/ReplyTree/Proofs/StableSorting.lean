import Mathlib.Data.List.Pairwise
import ReplyTree.Sorting

/- Stable sorting by a key. There is one list that has the keys in order and the items of each key
   as they were given, so all stable sorts agree. A sort that learns of its items only by asking
   has no answer where the items are of two groups and questions between groups have none: it
   could not know which group comes first. -/
namespace ReplyTree

variable {α ι κ : Type} {before : κ → κ → Prop} {key : α → κ} {xs ys : List α}

structure Ranking (before : κ → κ → Prop) : Prop where
  asymm : ∀ {a b}, before a b → ¬ before b a
  trans : ∀ {a b c}, ¬ before b a → ¬ before c b → ¬ before c a
  connected : ∀ {a b}, ¬ before a b → ¬ before b a → a = b

def Before [LT κ] (descending : Bool) (a b : κ) : Prop := if descending then b < a else a < b

instance [LT κ] [DecidableLT κ] (descending : Bool) (a b : κ) :
    Decidable (Before descending a b) :=
  inferInstanceAs (Decidable (if descending then _ else _))

theorem ranking_of_order [LT κ] [LE κ] [Std.IsLinearOrder κ] [Std.LawfulOrderLT κ]
    (descending : Bool) : Ranking (Before descending : κ → κ → Prop) := by
  constructor
  · intro a b first
    cases descending
    · exact Std.not_lt.mpr (Std.le_of_lt first)
    · exact Std.not_lt.mpr (Std.le_of_lt first)
  · intro a b c first second
    cases descending
    · exact Std.not_lt.mpr (Std.le_trans (Std.not_lt.mp first) (Std.not_lt.mp second))
    · exact Std.not_lt.mpr (Std.le_trans (Std.not_lt.mp second) (Std.not_lt.mp first))
  · intro a b first second
    cases descending
    · exact Std.le_antisymm (Std.not_lt.mp second) (Std.not_lt.mp first)
    · exact Std.le_antisymm (Std.not_lt.mp first) (Std.not_lt.mp second)

def Blocks (outer : ι → ι → Prop) (inner : κ → κ → Prop) (a b : ι × κ) : Prop :=
  outer a.1 b.1 ∨ a.1 = b.1 ∧ inner a.2 b.2

theorem Ranking.blocks {outer : ι → ι → Prop} (first : Ranking outer) (second : Ranking before) :
    Ranking (Blocks outer before) := by
  constructor
  · intro a b less greater
    rcases less with less | ⟨same, less⟩
    · rcases greater with greater | ⟨same, _⟩
      · exact first.asymm less greater
      · rw [same] at less
        exact first.asymm less less
    · rcases greater with greater | ⟨_, greater⟩
      · rw [same] at greater
        exact first.asymm greater greater
      · exact second.asymm less greater
  · intro a b c not_ba not_cb less
    have not_outer : ¬ outer c.1 a.1 :=
      first.trans (fun h => not_ba (Or.inl h)) (fun h => not_cb (Or.inl h))
    rcases less with less | ⟨same, less⟩
    · exact not_outer less
    · -- With `c` and `a` in one block, `b` has no place but in the same one.
      have with_b : a.1 = b.1 :=
        first.connected (fun h => not_cb (Or.inl (same ▸ h))) (fun h => not_ba (Or.inl h))
      exact second.trans (fun h => not_ba (Or.inr ⟨with_b.symm, h⟩))
        (fun h => not_cb (Or.inr ⟨same.trans with_b, h⟩)) less
  · intro a b not_ab not_ba
    have same : a.1 = b.1 :=
      first.connected (fun h => not_ab (Or.inl h)) (fun h => not_ba (Or.inl h))
    exact Prod.ext same (second.connected (fun h => not_ab (Or.inr ⟨same, h⟩))
      (fun h => not_ba (Or.inr ⟨same.symm, h⟩)))

def notAfter (before : κ → κ → Prop) [DecidableRel before] (key : α → κ) (x y : α) : Bool :=
  !decide (before (key y) (key x))

theorem not_after_trans_total [DecidableRel before] (ranking : Ranking before) (key : α → κ) :
    (∀ x y z, notAfter before key x y = true → notAfter before key y z = true →
      notAfter before key x z = true) ∧
    ∀ x y, (notAfter before key x y || notAfter before key y x) = true := by
  constructor
  · intro x y z first second
    simp only [notAfter, Bool.not_eq_true', decide_eq_false_iff_not] at first second ⊢
    exact ranking.trans first second
  · intro x y
    by_cases less : before (key y) (key x)
    · simp [notAfter, ranking.asymm less]
    · simp [notAfter, less]

section Keys

variable [DecidableEq κ]

def ofKey (key : α → κ) (k : κ) (xs : List α) : List α := xs.filter fun x => decide (key x = k)

/-- The items in the order of their keys, and those of one key as they were given. -/
structure SortedBy (before : κ → κ → Prop) (key : α → κ) (xs ys : List α) : Prop where
  perm : ys.Perm xs
  ordered : ys.Pairwise fun x y => ¬ before (key y) (key x)
  stable : ∀ k, ofKey key k ys = ofKey key k xs

theorem mem_of_key {x : α} (same : ∀ k, ofKey key k xs = ofKey key k ys) (member : x ∈ xs) :
    x ∈ ys := by
  have inside : x ∈ ofKey key (key x) xs := List.mem_filter.mpr ⟨member, by simp⟩
  rw [same] at inside
  exact (List.mem_filter.mp inside).1

theorem eq_of_ordered (ranking : Ranking before)
    (ordered : xs.Pairwise fun x y => ¬ before (key y) (key x))
    (ordered' : ys.Pairwise fun x y => ¬ before (key y) (key x))
    (same : ∀ k, ofKey key k xs = ofKey key k ys) : xs = ys := by
  induction xs generalizing ys with
  | nil =>
    cases ys with
    | nil => rfl
    | cons y ys =>
      have inside := mem_of_key (fun k => (same k).symm) (by simp : y ∈ y :: ys)
      simp at inside
  | cons x xs ih =>
    cases ys with
    | nil =>
      have inside := mem_of_key same (by simp : x ∈ x :: xs)
      simp at inside
    | cons y ys =>
      have irreflexive (k : κ) : ¬ before k k := fun first => ranking.asymm first first
      have not_before : ¬ before (key x) (key y) := by
        rcases List.mem_cons.mp (mem_of_key same (by simp : x ∈ x :: xs)) with rfl | later
        · exact irreflexive _
        · exact (List.pairwise_cons.mp ordered').1 x later
      have not_after : ¬ before (key y) (key x) := by
        have inside := mem_of_key (fun k => (same k).symm) (by simp : y ∈ y :: ys)
        rcases List.mem_cons.mp inside with rfl | later
        · exact irreflexive _
        · exact (List.pairwise_cons.mp ordered).1 y later
      -- The two heads have one key, so they head the same items of that key.
      have keys : key x = key y := ranking.connected not_before not_after
      have heads : x = y := by
        have first := same (key y)
        simp only [ofKey, List.filter_cons, keys, decide_true, if_true] at first
        exact (List.cons.inj first).1
      subst y
      have tails : ∀ k, ofKey key k xs = ofKey key k ys := by
        intro k
        have whole := same k
        simp only [ofKey, List.filter_cons] at whole ⊢
        split at whole
        · exact (List.cons.inj whole).2
        · exact whole
      rw [ih (List.pairwise_cons.mp ordered).2 (List.pairwise_cons.mp ordered').2 tails]

theorem SortedBy.unique {zs : List α} (ranking : Ranking before)
    (sorted : SortedBy before key xs ys) (sorted' : SortedBy before key xs zs) : ys = zs := by
  apply eq_of_ordered ranking sorted.ordered sorted'.ordered
  intro k
  rw [sorted.stable, sorted'.stable]

theorem SortedBy.again (sorted : SortedBy before key xs ys) : SortedBy before key ys ys :=
  ⟨.refl ys, sorted.ordered, fun _ => rfl⟩

theorem SortedBy.keys {xs' ys' : List α} (ranking : Ranking before)
    (sorted : SortedBy before key xs ys) (sorted' : SortedBy before key xs' ys')
    (perm : xs.Perm xs') : ys.map key = ys'.map key := by
  have perm' : (ys.map key).Perm (ys'.map key) :=
    ((sorted.perm.trans perm).trans sorted'.perm.symm).map key
  have ordered : (ys.map key).Pairwise fun a b => ¬ before b a :=
    List.pairwise_map.mpr sorted.ordered
  have ordered' : (ys'.map key).Pairwise fun a b => ¬ before b a :=
    List.pairwise_map.mpr sorted'.ordered
  apply List.Perm.eq_of_pairwise _ ordered ordered' perm'
  intro a b _ _ first second
  exact ranking.connected second first

theorem sorted_by_mergeSort [DecidableRel before] (ranking : Ranking before) (key : α → κ)
    (xs : List α) : SortedBy before key xs (xs.mergeSort (notAfter before key)) := by
  obtain ⟨trans, total⟩ := not_after_trans_total ranking key
  have perm := List.mergeSort_perm xs (notAfter before key)
  refine ⟨perm, ?_, ?_⟩
  · simpa [notAfter] using List.pairwise_mergeSort trans total xs
  · intro k
    have level : (ofKey key k xs).Pairwise fun x y => notAfter before key x y = true := by
      refine (List.pairwise_of_forall fun _ _ => trivial).imp_of_mem ?_
      intro x y inside inside' _
      have keys : key y = key x := by
        rw [of_decide_eq_true (List.mem_filter.mp inside).2,
          of_decide_eq_true (List.mem_filter.mp inside').2]
      simp only [notAfter, keys, Bool.not_eq_true', decide_eq_false_iff_not]
      exact fun first => ranking.asymm first first
    have kept := List.sublist_mergeSort trans total level List.filter_sublist
    have among : (ofKey key k xs).Sublist (ofKey key k (xs.mergeSort (notAfter before key))) := by
      simpa [ofKey] using kept.filter fun x => decide (key x = k)
    exact (among.eq_of_length (perm.filter _).length_eq.symm).symm

/-- A procedure that sorts and learns of its items only by asking which of two comes first. If a
    question has no answer neither has the procedure, so an outcome stays the same when more
    questions are answered. If the answers are those of a total order, the outcome is the stable
    sort by that order. -/
structure StableSort (sort : (α → α → Option Bool) → List α → Option (List α)) : Prop where
  monotone : ∀ {ask ask' : α → α → Option Bool} {xs ys},
    (∀ x y answer, ask x y = some answer → ask' x y = some answer) →
      sort ask xs = some ys → sort ask' xs = some ys
  sorts : ∀ {ask : α → α → Option Bool} {le : α → α → Bool} {xs},
    (∀ x y z, le x y = true → le y z = true → le x z = true) →
    (∀ x y, (le x y || le y x) = true) →
    (∀ x ∈ xs, ∀ y ∈ xs, ask y x = some (!le x y)) → sort ask xs = some (xs.mergeSort le)

variable {sort sort' : (α → α → Option Bool) → List α → Option (List α)}
  {ask : α → α → Option Bool} {group : α → Nat}

theorem StableSort.sorted_by [DecidableRel before] (stable : StableSort sort)
    (ranking : Ranking before)
    (answers : ∀ x ∈ xs, ∀ y ∈ xs, ask y x = some (decide (before (key y) (key x)))) :
    ∃ ys, sort ask xs = some ys ∧ SortedBy before key xs ys := by
  obtain ⟨trans, total⟩ := not_after_trans_total ranking key
  refine ⟨_, stable.sorts trans total ?_, sorted_by_mergeSort ranking key xs⟩
  intro x member y member'
  rw [answers x member y member', notAfter, Bool.not_not]

theorem StableSort.sorted_by_blocks [DecidableRel before] (stable : StableSort sort)
    (ranking : Ranking before)
    (answers : ∀ x y, ask x y =
      if group x = group y then some (decide (before (key x) (key y))) else none)
    (done : sort ask xs = some ys) (descending : Bool) :
    SortedBy (Blocks (Before descending) before) (fun x => (group x, key x)) xs ys := by
  classical
  let ask' : α → α → Option Bool := fun x y =>
    some (decide (Blocks (Before descending) before (group x, key x) (group y, key y)))
  have more : ∀ x y answer, ask x y = some answer → ask' x y = some answer := by
    intro x y answer given
    rw [answers] at given
    split at given
    · rename_i one
      cases given
      have outer : ¬ Before descending (group y) (group y) :=
        fun first => (ranking_of_order descending).asymm first first
      simp [ask', Blocks, one, outer]
    · cases given
  have total : ∃ zs, sort ask' xs = some zs ∧
      SortedBy (Blocks (Before descending) before) (fun x => (group x, key x)) xs zs :=
    stable.sorted_by ((ranking_of_order descending).blocks ranking) fun _ _ _ _ => rfl
  obtain ⟨zs, sorted, blocks⟩ := total
  cases (stable.monotone more done).symm.trans sorted
  exact blocks

theorem StableSort.one_group [DecidableRel before] (stable : StableSort sort)
    (ranking : Ranking before)
    (answers : ∀ x y, ask x y =
      if group x = group y then some (decide (before (key x) (key y))) else none)
    (done : sort ask xs = some ys) : ∀ x ∈ xs, ∀ y ∈ xs, group x = group y := by
  -- One list has the groups both in ascending and in descending order.
  have up := stable.sorted_by_blocks ranking answers done false
  have down := stable.sorted_by_blocks ranking answers done true
  have level : ys.Pairwise fun x y => group x = group y := by
    refine up.ordered.imp₂ ?_ down.ordered
    intro x y not_less not_greater
    have low : ¬ group y < group x := fun less => not_less (Or.inl less)
    have high : ¬ group x < group y := fun less => not_greater (Or.inl less)
    omega
  have symmetric : Std.Symm fun x y => group x = group y := ⟨fun _ _ same => same.symm⟩
  have throughout : ∀ x ∈ ys, ∀ y ∈ ys, group x = group y := by
    intro x member y member'
    by_cases same : x = y
    · rw [same]
    · exact level.forall member member' same
  intro x member y member'
  exact throughout x (up.perm.mem_iff.mpr member) y (up.perm.mem_iff.mpr member')

theorem StableSort.grouped [DecidableRel before] (stable : StableSort sort)
    (ranking : Ranking before)
    (answers : ∀ x y, ask x y =
      if group x = group y then some (decide (before (key x) (key y))) else none)
    (xs : List α) :
    (∃ ys, sort ask xs = some ys ∧ SortedBy before key xs ys ∧
      ∀ x ∈ xs, ∀ y ∈ xs, group x = group y) ∨
    (sort ask xs = none ∧ ∃ x ∈ xs, ∃ y ∈ xs, group x ≠ group y) := by
  by_cases one : ∀ x ∈ xs, ∀ y ∈ xs, group x = group y
  · have within : ∀ x ∈ xs, ∀ y ∈ xs, ask y x = some (decide (before (key y) (key x))) := by
      intro x member y member'
      rw [answers, if_pos (one y member' x member)]
    obtain ⟨ys, sorted, by_key⟩ := stable.sorted_by ranking within
    exact Or.inl ⟨ys, sorted, by_key, one⟩
  · have two : ∃ x ∈ xs, ∃ y ∈ xs, group x ≠ group y := by
      by_contra none_differ
      apply one
      intro x member y member'
      by_contra differ
      exact none_differ ⟨x, member, y, member', differ⟩
    cases outcome : sort ask xs with
    | none => exact Or.inr ⟨rfl, two⟩
    | some ys => exact absurd (stable.one_group ranking answers outcome) one

theorem StableSort.agree [DecidableRel before] (stable : StableSort sort)
    (stable' : StableSort sort') (ranking : Ranking before)
    (answers : ∀ x y, ask x y =
      if group x = group y then some (decide (before (key x) (key y))) else none)
    (xs : List α) : sort ask xs = sort' ask xs := by
  rcases stable.grouped ranking answers xs with
    ⟨ys, sorted, by_key, one⟩ | ⟨unsorted, x, member, y, member', differ⟩
  · rcases stable'.grouped ranking answers xs with
      ⟨zs, sorted', by_key', _⟩ | ⟨_, x, member, y, member', differ⟩
    · rw [sorted, sorted', by_key.unique ranking by_key']
    · exact absurd (one x member y member') differ
  · rcases stable'.grouped ranking answers xs with ⟨_, _, _, one⟩ | ⟨unsorted', _⟩
    · exact absurd (one x member y member') differ
    · rw [unsorted, unsorted']

end Keys

/- The insertion sort is such a procedure. -/

theorem insert_monotone {ask ask' : α → α → Option Bool}
    (more : ∀ x y answer, ask x y = some answer → ask' x y = some answer) {x : α}
    (done : insertBy? ask x xs = some ys) : insertBy? ask' x xs = some ys := by
  induction xs generalizing ys with
  | nil => exact done
  | cons y rest ih =>
    unfold insertBy? at done ⊢
    cases answer : ask y x with
    | none => simp [answer] at done
    | some first =>
      rw [more y x first answer]
      rw [answer] at done
      cases first with
      | false => exact done
      | true =>
        obtain ⟨zs, inserted, rfl⟩ := Option.map_eq_some_iff.mp done
        simp only [ih inserted, Option.map_some]

theorem sort_monotone {ask ask' : α → α → Option Bool}
    (more : ∀ x y answer, ask x y = some answer → ask' x y = some answer)
    (done : sortBy? ask xs = some ys) : sortBy? ask' xs = some ys := by
  induction xs generalizing ys with
  | nil => exact done
  | cons x rest ih =>
    unfold sortBy? at done ⊢
    obtain ⟨zs, sorted, inserted⟩ := Option.bind_eq_some_iff.mp done
    rw [ih sorted, Option.bind_some]
    exact insert_monotone more inserted

theorem stable_insertion_sort : StableSort (sortBy? : (α → α → Option Bool) → _) :=
  ⟨sort_monotone, fun trans total answers => sort_eq_mergeSort trans total answers⟩

end ReplyTree
