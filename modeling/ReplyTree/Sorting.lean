/- Stable insertion sort by a test that need not have an answer. -/
namespace ReplyTree

variable {α β : Type}

def insertBy? (before? : α → α → Option Bool) (x : α) : List α → Option (List α)
  | [] => some [x]
  | y :: rest =>
    match before? y x with
    | none => none
    | some true => (insertBy? before? x rest).map (y :: ·)
    | some false => some (x :: y :: rest)

/-- The items in order, equal ones as they were given. There is no answer as soon as two items
    that meet cannot be compared. -/
def sortBy? (before? : α → α → Option Bool) : List α → Option (List α)
  | [] => some []
  | x :: rest => (sortBy? before? rest).bind (insertBy? before? x)

theorem insert_map (before? : β → β → Option Bool) (f : α → β) (x : α) (ys : List α) :
    insertBy? before? (f x) (ys.map f) =
      (insertBy? (fun a b => before? (f a) (f b)) x ys).map (List.map f) := by
  induction ys with
  | nil => rfl
  | cons y rest ih =>
    simp only [List.map_cons, insertBy?, ih]
    cases before? (f y) (f x) with
    | none => rfl
    | some first =>
      cases first with
      | false => rfl
      | true => cases insertBy? (fun a b => before? (f a) (f b)) x rest <;> rfl

theorem sort_map (before? : β → β → Option Bool) (f : α → β) (xs : List α) :
    sortBy? before? (xs.map f) =
      (sortBy? (fun a b => before? (f a) (f b)) xs).map (List.map f) := by
  induction xs with
  | nil => rfl
  | cons x rest ih =>
    simp only [List.map_cons, sortBy?, ih]
    cases sortBy? (fun a b => before? (f a) (f b)) rest with
    | none => rfl
    | some ys => exact insert_map before? f x ys

theorem insert_between {before? : α → α → Option Bool} {x : α} {front back : List α}
    (earlier : ∀ y ∈ front, before? y x = some true)
    (later : ∀ y ∈ back, before? y x = some false) :
    insertBy? before? x (front ++ back) = some (front ++ x :: back) := by
  induction front with
  | nil =>
    cases back with
    | nil => rfl
    | cons y back =>
      have first := later y (by simp)
      simp only [List.nil_append, insertBy?, first]
  | cons y front ih =>
    have first := earlier y (by simp)
    have rest := ih fun z member => earlier z (by simp [member])
    simp only [List.cons_append, insertBy?, first, rest, Option.map_some]

/-- Where the test answers for every two items, and as a total order does, the items come out
    as from any stable sort by that order. -/
theorem sort_eq_mergeSort {before? : α → α → Option Bool} {le : α → α → Bool}
    (trans : ∀ a b c, le a b = true → le b c = true → le a c = true)
    (total : ∀ a b, (le a b || le b a) = true) {xs : List α}
    (answers : ∀ x ∈ xs, ∀ y ∈ xs, before? y x = some (!le x y)) :
    sortBy? before? xs = some (xs.mergeSort le) := by
  induction xs with
  | nil => simp [sortBy?]
  | cons x rest ih =>
    have sorted := ih fun a first b second => answers a (by simp [first]) b (by simp [second])
    obtain ⟨front, back, whole, split, earlier⟩ := List.mergeSort_cons trans total x rest
    have member (y : α) (inside : y ∈ front ++ back) : y ∈ x :: rest := by
      rw [← split] at inside
      exact List.mem_cons_of_mem x ((List.mergeSort_perm rest le).mem_iff.mp inside)
    have ordered := List.pairwise_mergeSort trans total (x :: rest)
    rw [whole] at ordered
    have above := (List.pairwise_cons.mp (List.pairwise_append.mp ordered).2.1).1
    rw [sortBy?, sorted, Option.bind_some, split, whole]
    apply insert_between
    · intro y inside
      rw [answers x (by simp) y (member y (by simp [inside])), earlier y inside]
    · intro y inside
      rw [answers x (by simp) y (member y (by simp [inside])), above y inside, Bool.not_true]

end ReplyTree
