/-
# Open modes

A session is opened to read a store, to extend it, or to start it anew.  A mode is written as one
letter, perhaps followed by a `b`.
-/
import ConstStore.Error

namespace ConstStore

inductive Mode where
  /-- The store has to exist, and nothing can be added. -/
  | read
  /-- The store is extended; where there is none this is `create`. -/
  | write
  /-- What the store holds is left aside. -/
  | create
  deriving Repr, DecidableEq

namespace Mode

/-- Whether records can be added. -/
def isWritable : Mode → Bool
  | read => false
  | write | create => true

/-- The letter of a mode. -/
def letter : Mode → String
  | read => "r"
  | write => "w"
  | create => "c"

/-- The name of a mode. -/
def name : Mode → String
  | read => "Read"
  | write => "Write"
  | create => "Create"

/-- Reads a mode. -/
def parse (text : String) : Except Error Mode :=
  let ofLetter : Char → Except Error Mode
    | 'r' => .ok read
    | 'w' => .ok write
    | 'c' => .ok create
    | _ => .error (.invalidMode text)
  match text.toList with
  | [c] => ofLetter c
  | [c, 'b'] => ofLetter c
  | _ => .error (.invalidMode text)

end Mode
end ConstStore
