import ReplyTree.Numeral
import ReplyTree.Outcome

/- Relations between values of any kind. Numbers are the same by what they stand for, flags among
   them; positions by their texts; layouts and lines by their entries; issuers and ceilings by
   having been made together. In a tree only positions have a place: other values lack the
   relations there if asked, and do not hold them if asked about. -/
namespace ReplyTree.Value

def amount? : Value → Option Amount
  | .flag b => some (.ofInt (if b then 1 else 0))
  | .whole n => some (.ofInt n)
  | .decimal numeral => some (Numeral.amount numeral)
  | _ => none

def sameNumber (a b : Value) : Bool :=
  match a.amount?, b.amount? with
  | some x, some y => decide (x = y)
  | _, _ => false

mutual

def same : Value → Value → Bool
  | .nothing, .nothing => true
  | .undefined a, .undefined b => a == b
  | .text s, .text t => s == t
  | .bytes as, .bytes bs => as == bs
  | .list xs, .list ys => sameAll xs ys
  | .tuple xs, .tuple ys => sameAll xs ys
  | .record fs, .record gs => fs.length == gs.length && sameFields fs gs
  | .layout l, .layout m => l == m
  | .position p, .position q => decide (p.Same q)
  | .line who depth shown indent, .line who' depth' shown' indent' =>
    same who who' && same depth depth' && same shown shown' && same indent indent'
  | .issuer a _, .issuer b _ => a == b
  | .ceiling a _, .ceiling b _ => a == b
  | a, b => sameNumber a b

def sameAll : List Value → List Value → Bool
  | [], [] => true
  | v :: rest, w :: rest' => same v w && sameAll rest rest'
  | _, _ => false

def sameFields : List (String × Value) → List (String × Value) → Bool
  | [], _ => true
  | (name, v) :: rest, others =>
    match others.lookup name with
    | some w => same v w && sameFields rest others
    | none => false

end

def isAbove (a b : Value) : Except Fault Bool :=
  match a, b with
  | .position p, .position q => .ok (decide (p.Above q))
  | .position _, _ => .ok false
  | _, _ => .error .noAttribute

def isBelow (a b : Value) : Except Fault Bool :=
  match a, b with
  | .position p, .position q => .ok (decide (q.Above p))
  | _, _ => .error .noAttribute

def relate (test : Position → Position → Option Bool) (a b : Value) : Except Fault Bool :=
  match a, b with
  | .position p, .position q =>
    match test p q with
    | some answer => .ok answer
    | none => .error .typeMismatch
  | _, _ => .error .typeMismatch

/-- One of each kind of sameness, the latest first. -/
def representatives (items : List Value) : List Value :=
  items.foldl (fun seen v => if seen.any (same v) then seen else v :: seen) []

def countDistinct (items : List Value) : Except Fault Nat :=
  if hashableAll items then .ok (representatives items).length else .error .typeMismatch

end ReplyTree.Value
