import ReplyTree.Value.Printed

/- What can go wrong, as causes. The wording of each is kept apart from the cause. -/
namespace ReplyTree

inductive Reason where
  | notText (kind : String)
  | unreadable (why : Misreading)
  | noOrdinals
  | badOrdinal (given : Value)
  | otherWidth (found expected : Nat)
  | stated (given : Value)

def Misreading.text : Misreading → String
  | .unterminated terminator => "missing trailing " ++ Text.quoted [terminator]
  | .wrongWidth segment width =>
    "segment " ++ Text.quoted segment ++ " is not " ++ Nat.repr width ++ " digits wide"
  | .notDecimal segment => "segment " ++ Text.quoted segment ++ " is not decimal"

namespace Reason

def text : Reason → String
  | .notText kind => "expected str, not " ++ kind
  | .unreadable why => why.text
  | .noOrdinals => "a key needs at least one segment"
  | .badOrdinal given => "segment " ++ given.literal ++ " is not a non-negative int"
  | .otherWidth found expected =>
    "encoded with " ++ Nat.repr found ++ "-digit segments, expected " ++ Nat.repr expected
  | .stated given => given.display

def value : Reason → Value
  | .stated given => given
  | why => .text why.text

end Reason

inductive Family where
  | everything | raised | failure | arithmetic | tooLarge | badValue | badKind | noAttribute
  | frozen | noEntry | tree | overflow | malformed | ordinal
  deriving DecidableEq, Repr

def Family.lineage : Family → List Family
  | .everything => [.everything]
  | .raised => [.raised, .everything]
  | .failure => [.failure, .raised, .everything]
  | .arithmetic => [.arithmetic, .failure, .raised, .everything]
  | .tooLarge => [.tooLarge, .arithmetic, .failure, .raised, .everything]
  | .badValue => [.badValue, .failure, .raised, .everything]
  | .badKind => [.badKind, .failure, .raised, .everything]
  | .noAttribute => [.noAttribute, .failure, .raised, .everything]
  | .frozen => [.frozen, .noAttribute, .failure, .raised, .everything]
  | .noEntry => [.noEntry, .failure, .raised, .everything]
  | .tree => [.tree, .failure, .raised, .everything]
  | .overflow => [.overflow, .tree, .tooLarge, .arithmetic, .failure, .raised, .everything]
  | .malformed => [.malformed, .tree, .badValue, .failure, .raised, .everything]
  | .ordinal => [.ordinal, .tree, .badValue, .failure, .raised, .everything]

/-- A fault of an operation. The two stated ones are made by hand from arguments, an overflow
    with the number of digits that its width amounts to. The two on numbers say that a numeral
    is too long to be converted: one was read, the other would have had to be written. -/
inductive Fault where
  | overflow (ordinal width depth : Nat)
  | malformed (given : Value) (why : Reason)
  | badSibling (given : Value)
  | badSetting (which : Setting) (given : Value)
  | marksUnordered (separator terminator : Char)
  | unknownSettings (names : List String)
  | notPair (length : Nat)
  | notSiblings (p first : Position)
  | badDepth (given : Value)
  | typeMismatch
  | noAttribute
  | frozen
  | noEntry
  | unreadableNumber (digits most : Nat)
  | unwritableNumber (most : Nat)
  | stated (family : Family) (arguments : List Value)
  | statedOverflow (ordinal width depth : Value) (digits : Int)

namespace Fault

def family : Fault → Family
  | .overflow .. | .statedOverflow .. => .overflow
  | .malformed .. => .malformed
  | .badSibling _ => .ordinal
  | .badSetting .. | .marksUnordered .. | .unknownSettings _ | .notPair _ | .notSiblings ..
  | .badDepth _ | .unreadableNumber .. | .unwritableNumber _ => .badValue
  | .typeMismatch => .badKind
  | .noAttribute => .noAttribute
  | .frozen => .frozen
  | .noEntry => .noEntry
  | .stated family _ => family

/-- The largest number of so many digits. Below zero digits it is a fraction under zero,
    written to sixteen places. -/
def limitText : Int → String
  | .ofNat digits => Nat.repr (Decimal.span digits - 1)
  | .negSucc missing =>
    if missing < 16 then "-0." ++ String.ofList (List.replicate (missing + 1) '9') else "-1.0"

def overflowText (ordinal width depth : Value) (digits : Int) : String :=
  "Ordinal " ++ ordinal.display ++ " at depth " ++ depth.display ++ " exceeds the " ++
    width.display ++ "-digit segment limit (" ++ limitText digits ++ ")"

def longText (most : Nat) : String :=
  "Exceeds the limit (" ++ Nat.repr most ++ " digits) for integer string conversion"

def longAdvice : String := "; use sys.set_int_max_str_digits() to increase the limit"

def settingText (which : Setting) (given : Value) : String :=
  let demand :=
    match which with
    | .width => " must be a positive int, not "
    | .limit => " must be a non-negative int, not "
    | .separator | .terminator => " must be a single character sorting below '0', not "
  which.name ++ demand ++ given.literal

def message : Fault → String
  | .overflow ordinal width depth =>
    overflowText (.ofNat ordinal) (.ofNat width) (.ofNat depth) width
  | .statedOverflow ordinal width depth digits => overflowText ordinal width depth digits
  | .malformed given why => "Malformed thread key " ++ given.literal ++ ": " ++ why.text
  | .badSibling given => "Sibling ordinal must be a non-negative int, not " ++ given.literal
  | .badSetting which given => settingText which given
  | .marksUnordered separator terminator =>
    "separator " ++ Text.quoted [separator] ++ " must sort below terminator " ++
      Text.quoted [terminator]
  | .unknownSettings names => "Unknown thread settings: " ++ String.intercalate ", " names
  | .notPair length =>
    "dictionary update sequence element #0 has length " ++ Nat.repr length ++ "; 2 is required"
  | .notSiblings p first => p.text ++ " is not a sibling of " ++ first.text
  | .badDepth given => "logical_depth must be a non-negative int, not " ++ given.literal
  | .unreadableNumber digits most =>
    longText most ++ ": value has " ++ Nat.repr digits ++ " digits" ++ longAdvice
  | .unwritableNumber most => longText most ++ longAdvice
  | .stated _ [] => ""
  | .stated _ [argument] => argument.display
  | .stated _ arguments => (Value.tuple arguments).literal
  | .typeMismatch => "unsuitable kind of value"
  | .noAttribute => "no such attribute"
  | .frozen => "not to be changed"
  | .noEntry => "no such entry"

/-- The fault made by hand from a family and arguments, or the one for unsuitable arguments.
    The limit named by an overflow has as many digits as its width says. -/
def declare (bound : Decimal.Bound) : Family → List Value → Fault
  | .overflow, [ordinal, width] => overflowOf ordinal width (.whole 0)
  | .overflow, [ordinal, width, depth] => overflowOf ordinal width depth
  | .overflow, _ => .typeMismatch
  | .malformed, [given, why] => .malformed given (.stated why)
  | .malformed, _ => .typeMismatch
  | family, arguments => .stated family arguments
where
  overflowOf (ordinal width depth : Value) : Fault :=
    let ofDigits (digits : Int) : Fault :=
      match bound.exceeded? digits.toNat with
      | none => .statedOverflow ordinal width depth digits
      | some most => .unwritableNumber most
    match width with
    | .whole n => ofDigits n
    | .flag b => ofDigits (if b then 1 else 0)
    | _ => .typeMismatch

end Fault

end ReplyTree
