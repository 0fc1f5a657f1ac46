import LogShipper.Store.Transport

/-!
# A store whose answers are yet to come

What is asked of a store that is out in the world can hang on what it answered before. A `Tape`
holds the answers that came so far. Once they are used up, the first operation that follows is
written down as asked, and whatever is done from there on is of no account: whoever can carry out
the operation puts its answer at the end of the tape and begins again.
-/

namespace LogShipper

/-- Something to be done to a link. -/
inductive Deed where
  | connect (link : LinkId)
  | push (link : LinkId) (key : String) (payload : Bytes)
  | ping (link : LinkId)
  | close (link : LinkId)
  deriving DecidableEq, Repr

/-- The answers so far, and what is asked for after them. -/
structure Tape where
  answers : List (Except LinkError Unit) := []
  asked : Option Deed := none

namespace Tape

/-- Takes the next answer. -/
def next (d : Deed) (t : Tape) : Except LinkError Unit × Tape :=
  match t.answers with
  | a :: answers => (a, { t with answers })
  | [] => (.error (.command ""), { t with asked := some (t.asked.getD d) })

/-- The store behind a tape. -/
def transport : Transport Tape where
  connect link _ := next (.connect link)
  beginPush _ _ _ t := ([], t)
  endPush link key payload := next (.push link key payload)
  ping link := next (.ping link)
  reset _ t := (.ok (), t)
  close link t := (next (.close link) t).2
  -- carrying it out takes the time that it takes
  connectTime _ := 0

end Tape

end LogShipper
