import ReplyTree.Position.Written
import ReplyTree.Text
import ReplyTree.Value

/- The texts of values inside messages: `literal` shows a value as it would be entered,
   `display` leaves text and positions bare. -/
namespace ReplyTree

def Layout.literal (l : Layout) : String :=
  "ThreadSettings(segment_width=" ++ Nat.repr l.width ++ ", max_depth=" ++ Nat.repr l.limit ++
    ", separator=" ++ Text.quoted [l.separator] ++ ", terminator=" ++
    Text.quoted [l.terminator] ++ ")"

def Position.literal (p : Position) : String := "ThreadKey(" ++ Text.quoted p.letters ++ ")"

namespace Value

def kind : Value → String
  | .nothing => "NoneType"
  | .flag _ => "bool"
  | .whole _ => "int"
  | .decimal _ | .undefined _ => "float"
  | .text _ => "str"
  | .bytes _ => "bytes"
  | .list _ => "list"
  | .tuple _ => "tuple"
  | .record _ => "dict"
  | .layout _ => "ThreadSettings"
  | .position _ => "ThreadKey"
  | .line .. => "ThreadEntry"
  | .issuer .. => "KeyAllocator"
  | .ceiling .. => "DepthLimiter"

mutual

def literal : Value → String
  | .nothing => "None"
  | .flag b => if b then "True" else "False"
  | .whole n => Int.repr n
  | .decimal numeral => numeral
  | .undefined _ => "nan"
  | .text s => Text.quoted s.toList
  | .bytes bs => Text.quotedBytes bs
  | .list items => "[" ++ String.intercalate ", " (literals items) ++ "]"
  | .tuple items =>
    let close := if items.length = 1 then ",)" else ")"
    "(" ++ String.intercalate ", " (literals items) ++ close
  | .record fields => "\x7b" ++ String.intercalate ", " (fieldLiterals fields) ++ "\x7d"
  | .layout l => l.literal
  | .position p => p.literal
  | .line who depth shown indent =>
    "ThreadEntry(key=" ++ literal who ++ ", depth=" ++ literal depth ++
      ", display_depth=" ++ literal shown ++ ", indent=" ++ literal indent ++ ")"
  | .issuer _ l => "KeyAllocator(segment_width=" ++ Nat.repr l.width ++ ")"
  | .ceiling _ c => "DepthLimiter(max_depth=" ++ Nat.repr c.limit ++ ")"

def literals : List Value → List String
  | [] => []
  | v :: rest => literal v :: literals rest

def fieldLiterals : List (String × Value) → List String
  | [] => []
  | (name, v) :: rest => (Text.quoted name.toList ++ ": " ++ literal v) :: fieldLiterals rest

end

def display : Value → String
  | .text s => s
  | .position p => p.text
  | v => v.literal

end Value

end ReplyTree
