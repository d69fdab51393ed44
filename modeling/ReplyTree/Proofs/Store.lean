import ReplyTree.Proofs.Issuing
import ReplyTree.Proofs.Nesting

/- A store of positions in one layout that grows below places of its own and loses whole
   subtrees. The ordinal of a new position comes from the children that are there, and none of
   the stored positions is ever touched. -/
namespace ReplyTree

abbrev Store := List Position

abbrev Place := Option Position

namespace Place

def value : Place → Value
  | none => .nothing
  | some p => .position p

def ordinals : Place → List Nat
  | none => []
  | some p => p.ordinals

def Covers : Place → Position → Prop
  | none, _ => True
  | some p, q => p.Covers q

def In (place : Place) (l : Layout) : Prop := ∀ p, place = some p → p.layout = l

end Place

instance (p q : Position) : Decidable (p.Covers q) := inferInstanceAs (Decidable (_ ∨ _))

inductive Change where
  | add (place : Place)
  | delete (p : Position)

namespace Store

def children (store : Store) (place : Place) : List Position :=
  store.filter fun p => decide (p.parent?.map Position.letters = place.map Position.letters)

def fresh (bound : Decimal.Bound) (l : Layout) (store : Store) (place : Place) : Outcome Nat :=
  freshOrdinal bound (.named l) ((store.children place).map .position)

def add (bound : Decimal.Bound) (l : Layout) (store : Store) (place : Place) :
    Outcome Store := do
  let n ← store.fresh bound l place
  let p ← l.issue bound place.value (.ofNat n)
  return store ++ [p]

def delete (store : Store) (p : Position) : Store :=
  store.filter fun q => !decide (p.Covers q)

def after (bound : Decimal.Bound) (l : Layout) (store : Store) : Change → Store
  | .add place =>
    match (store.add bound l place).result with
    | .ok next => next
    | .error _ => store
  | .delete p => store.delete p

def Holds (store : Store) (place : Place) : Prop := ∀ p, place = some p → p ∈ store

def Allows (store : Store) : Change → Prop
  | .add place => store.Holds place
  | .delete p => p ∈ store

/-- The stores that changes lead to. A store gives out its positions in any order. -/
inductive Reachable (bound : Decimal.Bound) (l : Layout) : Store → Prop
  | empty : Reachable bound l []
  | step {store : Store} (change : Change) :
      Reachable bound l store → store.Allows change →
        Reachable bound l (store.after bound l change)
  | reorder {store store' : Store} :
      Reachable bound l store → store.Perm store' → Reachable bound l store'

def Distinct (store : Store) : Prop := store.Pairwise fun p q => ¬ p.Same q

/-- The invariant of a store: every position is in its layout, none is there twice, and every
    parent is there. -/
structure Consistent (l : Layout) (store : Store) : Prop where
  layouts : ∀ p ∈ store, p.layout = l
  distinct : store.Distinct
  rooted : Rooted store

end Store

variable {bound : Decimal.Bound} {l : Layout} {store : Store} {place : Place}
  {p q c : Position} {m n : Nat} {rest : List Nat}

theorem Place.Covers.ordinals (covers : place.Covers q) : place.ordinals <+: q.ordinals := by
  cases place with
  | none => exact List.nil_prefix
  | some p => exact (covers : p.Covers q).width_ordinals.2

theorem Place.covers_of_ordinals (inside : place.In l) (layout : q.layout = l)
    (start : place.ordinals <+: q.ordinals) : place.Covers q := by
  cases place with
  | none => trivial
  | some p =>
    have same : p.layout = q.layout := (inside p rfl).trans layout.symm
    exact Position.covers_of_width_ordinals (.of_layout same) (by rw [same]) start

theorem Place.parent_of_ordinals (inside : place.In l) (layout : c.layout = l)
    (path : c.ordinals = place.ordinals ++ [n]) : c.parent? = place := by
  cases place with
  | none => exact Position.parent_of_top path
  | some p =>
    rw [Position.parent_of_path path]
    refine congrArg some (Position.eq_of_ordinals ?_ (Position.ordinals_of_path path))
    exact layout.trans (inside p rfl).symm

theorem Layout.parent_ordinals (bound : Decimal.Bound) (inside : place.In l) :
    ∃ above, (l.parentOrdinals bound place.value).result = .ok above ∧
      above.val = place.ordinals := by
  cases place with
  | none => exact ⟨_, rfl, rfl⟩
  | some p =>
    have width : p.layout.width = l.width := by rw [inside p rfl]
    have received : (Position.receive bound l (.position p)).result = .ok ⟨p, width⟩ := by
      simp only [Position.receive, dif_pos width, Outcome.result_pure]
    refine ⟨⟨p.ordinals, p.fits_width width⟩, ?_, rfl⟩
    simp only [Place.value, Layout.parentOrdinals, Outcome.bind_of_ok received,
      Outcome.result_pure]

theorem Position.ordinal_of_path {front : List Nat} (path : p.ordinals = front ++ [n]) :
    p.ordinal = n := by
  simp [Position.ordinal, path]

theorem Position.ordinal_fits (p : Position) : p.ordinal < p.layout.capacity :=
  p.fits _ (List.getLast_mem p.nonempty)

namespace Store

theorem mem_children :
    q ∈ store.children place ↔
      q ∈ store ∧ q.parent?.map Position.letters = place.map Position.letters := by
  simp [children]

theorem Consistent.place_in (consistent : store.Consistent l) (held : store.Holds place) :
    place.In l :=
  fun p named => consistent.layouts p (held p named)

theorem Consistent.child_above (consistent : store.Consistent l) (inside : place.In l)
    (member : q ∈ store) (path : q.ordinals = place.ordinals ++ m :: rest) :
    ∃ k ∈ store.children place, k.ordinal = m := by
  have length := q.length_ordinals
  rw [path, List.length_append, List.length_cons] at length
  have stored : ∃ k ∈ store, k.Same (q.upTo place.ordinals.length) := by
    by_cases deep : place.ordinals.length < q.depth
    · exact listed_of_rooted consistent.rooted q member _ deep
    · have whole : place.ordinals.length = q.depth := by omega
      exact ⟨q, member, by rw [whole, q.upTo_depth]; rfl⟩
  obtain ⟨k, listed, same⟩ := stored
  have ordinals : k.ordinals = place.ordinals ++ [m] := by
    rw [((Position.same_iff _ _).mp same).2.1, Position.ordinals_upTo, path,
      List.take_append, List.take_of_length_le (by omega)]
    simp
  have parent := Place.parent_of_ordinals inside (consistent.layouts k listed) ordinals
  exact ⟨k, mem_children.mpr ⟨listed, by rw [parent]⟩, Position.ordinal_of_path ordinals⟩

/-- What is added below a place: the next child after all that are there. -/
structure Next (l : Layout) (store : Store) (place : Place) (c : Position) : Prop where
  layout : c.layout = l
  path : c.ordinals = place.ordinals ++ [c.ordinal]
  above : ∀ k ∈ store.children place, k.ordinal < c.ordinal

def Full (l : Layout) (store : Store) (place : Place) : Prop :=
  ∃ k ∈ store.children place, k.ordinal = l.top

theorem Consistent.fresh_ok (consistent : store.Consistent l) (bound : Decimal.Bound)
    (place : Place) :
    ∃ n, FirstFree (store.children place) n ∧ (store.fresh bound l place).result = .ok n := by
  have widths : ∀ k ∈ store.children place, k.layout.width = l.width := by
    intro k child
    rw [consistent.layouts k (mem_children.mp child).1]
  have read : YieldsAll bound (.named l) ((store.children place).map .position)
      (store.children place) := by
    apply yields_positions
    intro k child
    rw [Yields, Position.ofValue_named bound (widths k child), Outcome.result_pure]
  apply fresh_ordinal_siblings read
  apply siblings_of_first_iff.mpr
  intro j child k child'
  exact ⟨(widths j child).trans (widths k child').symm,
    (mem_children.mp child).2.trans (mem_children.mp child').2.symm⟩

theorem Consistent.overflow_iff (consistent : store.Consistent l)
    (free : FirstFree (store.children place) n) : l.capacity ≤ n ↔ store.Full l place := by
  have positive := l.capacity_pos
  have top : l.top = l.capacity - 1 := rfl
  constructor
  · intro large
    rcases free.reached with ⟨_, zero⟩ | ⟨k, child, next⟩
    · omega
    · have fits := k.ordinal_fits
      rw [consistent.layouts k (mem_children.mp child).1] at fits
      exact ⟨k, child, by omega⟩
  · rintro ⟨k, child, last⟩
    have below := free.above k child
    omega

theorem Consistent.add_spec (consistent : store.Consistent l) (held : store.Holds place)
    (bound : Decimal.Bound) :
    ∃ n, (store.fresh bound l place).result = .ok n ∧
      (store.Full l place → (l.issue bound place.value (.ofNat n)).result =
          .error (.overflow n l.width place.ordinals.length) ∧
        store.after bound l (.add place) = store) ∧
      (¬ store.Full l place →
        ∃ c, (l.issue bound place.value (.ofNat n)).result = .ok c ∧
          store.Next l place c ∧ store.after bound l (.add place) = store ++ [c]) := by
  obtain ⟨n, first, found⟩ := consistent.fresh_ok bound place
  obtain ⟨parents, given, ordinals⟩ :=
    Layout.parent_ordinals bound (consistent.place_in held)
  obtain ⟨fitting, overflowing⟩ := Layout.issue_of_parent given n
  have overflow := consistent.overflow_iff first
  refine ⟨n, found, ?_, ?_⟩
  · intro full
    have refused := overflowing (overflow.mpr full)
    rw [ordinals] at refused
    refine ⟨refused, ?_⟩
    simp only [after, add, Outcome.bind_of_ok found, Outcome.bind_of_error refused]
  · intro free
    obtain ⟨c, issued, layout, path⟩ :=
      fitting (Nat.lt_of_not_le fun large => free (overflow.mp large))
    rw [ordinals] at path
    have last := Position.ordinal_of_path path
    refine ⟨c, issued, ⟨layout, by rw [path, last], by rw [last]; exact first.above⟩, ?_⟩
    simp only [after, add, Outcome.bind_of_ok found, Outcome.bind_of_ok issued,
      Outcome.result_pure]

theorem Next.parent (next : store.Next l place c) (inside : place.In l) : c.parent? = place :=
  Place.parent_of_ordinals inside next.layout next.path

theorem Next.left (next : store.Next l place c) (consistent : store.Consistent l)
    (held : store.Holds place) (member : q ∈ store) (covers : place.Covers q) :
    place = some q ∨ q.LeftOf c := by
  have inside := consistent.place_in held
  have layout := consistent.layouts q member
  obtain ⟨tail, path⟩ := covers.ordinals
  cases tail with
  | nil =>
    cases place with
    | none => exact absurd path.symm (by simpa [Place.ordinals] using q.nonempty)
    | some p =>
      have same : p = q :=
        Position.eq_of_ordinals ((inside p rfl).trans layout.symm)
          (by simpa [Place.ordinals] using path)
      exact Or.inl (by rw [same])
  | cons m rest =>
    obtain ⟨k, child, ordinal⟩ := consistent.child_above inside member path.symm
    have less := next.above k child
    rw [ordinal] at less
    exact Or.inr (Position.left_of_ordinals (by rw [layout, next.layout])
      (by rw [layout, next.layout]) path.symm next.path less)

end Store

end ReplyTree
