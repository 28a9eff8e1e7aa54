/-
# Documents

A document is a value made of texts, numbers, lists and named members, and is printed as JSON
over several lines: two blanks for each level, one member a line, members in the order of their
names, and only what JSON cannot hold in a string escaped.
-/

namespace ConstStore

inductive Document where
  | null
  | number (n : Nat)
  | text (content : String)
  | list (items : List Document)
  /-- Members with their names, in the order of the names. -/
  | record (members : List (String × Document))

namespace Document

/-- How a character stands in a JSON string. -/
def escape (c : Char) : String :=
  match c with
  | '"' => "\\\""
  | '\\' => "\\\\"
  | '\n' => "\\n"
  | '\r' => "\\r"
  | '\t' => "\\t"
  | '\x08' => "\\b"
  | '\x0c' => "\\f"
  | c =>
    if c.toNat < 0x20 then
      "\\u00" ++ (if c.toNat < 0x10 then "0" else "") ++ String.ofList (Nat.toDigits 16 c.toNat)
    else String.singleton c

/-- A JSON string. -/
def quote (text : String) : String :=
  "\"" ++ String.join (text.toList.map escape) ++ "\""

/-- The start of a line at a depth. -/
def newline (depth : Nat) : String := "\n" ++ String.ofList (List.replicate (2 * depth) ' ')

/-- Items one below the other, between brackets that stand at a depth. -/
def enclose (opening closing : String) (depth : Nat) (items : List String) : String :=
  if items.isEmpty then opening ++ closing
  else opening ++ newline (depth + 1)
    ++ String.intercalate ("," ++ newline (depth + 1)) items ++ newline depth ++ closing

mutual

/-- The text of a document that stands at a depth. -/
def renderAt : Document → (depth : Nat) → String
  | null, _ => "null"
  | number n, _ => toString n
  | text content, _ => quote content
  | list items, depth => enclose "[" "]" depth (renderItems items (depth + 1))
  | record members, depth => enclose "\x7b" "\x7d" depth (renderMembers members (depth + 1))

def renderItems : List Document → (depth : Nat) → List String
  | [], _ => []
  | item :: items, depth => renderAt item depth :: renderItems items depth

def renderMembers : List (String × Document) → (depth : Nat) → List String
  | [], _ => []
  | (name, member) :: members, depth =>
    (quote name ++ ": " ++ renderAt member depth) :: renderMembers members depth

end

/-- The text of a document. -/
def render (document : Document) : String := document.renderAt 0

end Document
end ConstStore
