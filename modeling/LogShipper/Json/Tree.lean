import LogShipper.Json.Token

/-!
# JSON documents as trees

`Tree.ofTokens` arranges tokens into a tree in one pass. The tree keeps everything that was read
before the first fault and marks the place of the fault: a container that breaks off is `cut`, or
`dangling` after a comma, and where a value is wanted and something else stands there is a
`missing` leaf. A reader that walks the tree in the order of the text thus meets exactly what a
reader of the text meets.
-/

namespace LogShipper.Json

/-- What stands where something else is wanted. -/
inductive Found where
  | ending (fault : Fault)
  | token (token : Token)

/-- A text that ends there is truncated, anything else is malformed. -/
def Found.fault : Found → Fault
  | .ending f => f
  | .token _ => .malformed

/-- How a container ends. -/
inductive Stop where
  | closed
  /-- Its value is known as a whole, and so is how much it holds. -/
  | known
  | cut (found : Found)
  /-- Cut where a member should follow a comma. -/
  | dangling (found : Found)

/-- A JSON value as far as it could be read. -/
inductive Node where
  | atom (lexeme : Lexeme)
  | array (items : List Node) (stop : Stop)
  | object (members : List (Lexeme × Node)) (stop : Stop)
  | missing (found : Found)

/-- A document: its value, and what stands after it if anything does. -/
structure Tree where
  root : Node
  trailing : Option Found

/-! ## Building -/

/-- An open container. What it holds so far stands last item first. -/
inductive Frame where
  | array (done : List Node)
  | object (done : List (Lexeme × Node))
  | member (done : List (Lexeme × Node)) (key : Lexeme)

/-- What may come next. -/
inductive Wanted where
  /-- A value. -/
  | value
  /-- A value, or the end of the array just opened. -/
  | item
  /-- A key, or the end of the object if it was just opened. -/
  | key (fresh : Bool)
  /-- A colon. -/
  | colon (key : Lexeme)
  /-- Whatever may follow a complete value. -/
  | after (node : Node)

/-- How far the tree is built. -/
structure State where
  wanted : Wanted
  stack : List Frame

/-- The tree around a part at which reading ends. -/
def plug (part : Node) : List Frame → Node
  | [] => part
  | .array done :: stack =>
    plug (.array (part :: done).reverse (.cut (.ending .malformed))) stack
  | .object done :: stack =>
    plug (.object done.reverse (.cut (.ending .malformed))) stack
  | .member done key :: stack =>
    plug (.object ((key, part) :: done).reverse (.cut (.ending .malformed))) stack

/-- The tree when something stands that is not wanted. -/
def State.finish (s : State) (found : Found) : Tree :=
  match s.wanted, s.stack with
  | .value, stack => ⟨plug (.missing found) stack, none⟩
  | .item, _ :: stack => ⟨plug (.array [] (.cut found)) stack, none⟩
  | .key fresh, .object done :: stack =>
    ⟨plug (.object done.reverse (if fresh then .cut found else .dangling found)) stack, none⟩
  | .colon key, .object done :: stack =>
    ⟨plug (.missing found) (.member done key :: stack), none⟩
  | .after node, [] =>
    match found with
    | .ending .truncated => ⟨node, none⟩
    | found => ⟨node, some found⟩
  | .after node, .array done :: stack =>
    ⟨plug (.array (node :: done).reverse (.cut found)) stack, none⟩
  | .after node, .member done key :: stack =>
    ⟨plug (.object ((key, node) :: done).reverse (.cut found)) stack, none⟩
  | _, stack => ⟨plug (.missing found) stack, none⟩

/-- A token where a value is wanted. -/
def State.feedValue (stack : List Frame) (t : Token) : Except Tree State :=
  match t with
  | .openArray => .ok ⟨.item, .array [] :: stack⟩
  | .openObject => .ok ⟨.key true, .object [] :: stack⟩
  | .atom l => .ok ⟨.after (.atom l), stack⟩
  | t => .error ((State.mk .value stack).finish (.token t))

/-- Takes one token; where it is not wanted the tree is finished. -/
def State.feed (s : State) (t : Token) : Except Tree State :=
  match s.wanted, s.stack, t with
  | .value, stack, t => State.feedValue stack t
  | .item, .array [] :: stack, .closeArray => .ok ⟨.after (.array [] .closed), stack⟩
  | .item, stack, t => State.feedValue stack t
  | .key true, .object [] :: stack, .closeObject => .ok ⟨.after (.object [] .closed), stack⟩
  | .key fresh, stack, .atom l =>
    if l.isText then .ok ⟨.colon l, stack⟩
    else .error ((State.mk (.key fresh) stack).finish (.token (.atom l)))
  | .colon key, .object done :: stack, .colon => .ok ⟨.value, .member done key :: stack⟩
  | .after node, .array done :: stack, .comma => .ok ⟨.value, .array (node :: done) :: stack⟩
  | .after node, .array done :: stack, .closeArray =>
    .ok ⟨.after (.array (node :: done).reverse .closed), stack⟩
  | .after node, .member done key :: stack, .comma =>
    .ok ⟨.key false, .object ((key, node) :: done) :: stack⟩
  | .after node, .member done key :: stack, .closeObject =>
    .ok ⟨.after (.object ((key, node) :: done).reverse .closed), stack⟩
  | wanted, stack, t => .error ((State.mk wanted stack).finish (.token t))

/-- Takes tokens one after the other. -/
def State.run (s : State) : List Token → Found → Tree
  | [], found => s.finish found
  | t :: ts, found =>
    match s.feed t with
    | .ok s => s.run ts found
    | .error tree => tree

/-- The tree of a list of tokens. -/
def Tree.ofTokens (lexed : Lexed) : Tree :=
  (State.mk .value []).run lexed.tokens (.ending lexed.ending)

/-- The tree of a text. -/
def Tree.ofText (s : String) : Tree := .ofTokens (lex s.toList)

end LogShipper.Json
