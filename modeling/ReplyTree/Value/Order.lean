import ReplyTree.Value.Relations

/- Which of two values is sorted before the other, where their kinds have an order: positions,
   numbers, texts and sequences among themselves. -/
namespace ReplyTree.Value

def isNumber : Value → Bool
  | .flag _ | .whole _ | .decimal _ | .undefined _ => true
  | _ => false

def lessNumber? (a b : Value) : Option Bool :=
  if a.isNumber && b.isNumber then
    match a.amount?, b.amount? with
    | some x, some y => some (x.less y)
    | _, _ => some false
  else none

mutual

def less? : Value → Value → Option Bool
  | .position p, .position q => p.lt? q
  | .text s, .text t => some (decide (s.toList < t.toList))
  | .bytes as, .bytes bs => some (decide (as < bs))
  | .list xs, .list ys => lessAll? xs ys
  | .tuple xs, .tuple ys => lessAll? xs ys
  | a, b => lessNumber? a b

def lessAll? : List Value → List Value → Option Bool
  | [], [] => some false
  | [], _ :: _ => some true
  | _ :: _, [] => some false
  | v :: rest, w :: rest' => if same v w then lessAll? rest rest' else less? v w

end

def before? (descending : Bool) (a b : Value) : Option Bool :=
  if descending then less? b a else less? a b

def sorted (descending : Bool) (items : List Value) : Except Fault (List Value) :=
  match sortBy? (before? descending) items with
  | some arranged => .ok arranged
  | none => .error .typeMismatch

theorem less_position (p q : Position) : less? (.position p) (.position q) = p.lt? q := by
  rw [less?]

theorem sorted_positions (descending : Bool) (ps : List Position) :
    sorted descending (ps.map .position) =
      match (if descending then Position.sortDescending? ps else Position.sort? ps) with
      | some qs => .ok (qs.map .position)
      | none => .error .typeMismatch := by
  unfold sorted
  rw [sort_map]
  cases descending with
  | false =>
    have order : (fun p q => before? false (.position p) (.position q)) = Position.lt? := by
      funext p q
      exact less_position p q
    rw [order, if_neg Bool.false_ne_true, Position.sort?]
    cases sortBy? Position.lt? ps <;> rfl
  | true =>
    have order : (fun p q => before? true (.position p) (.position q)) = Position.gt? := by
      funext p q
      exact less_position q p
    rw [order, if_pos rfl, Position.sortDescending?]
    cases sortBy? Position.gt? ps <;> rfl

end ReplyTree.Value
