import LogShipper.Text.Bytes
import LogShipper.Text.Digits
import LogShipper.Text.Quoted

/-!
# Payloads

What is pushed to a list: bytes that delivery neither looks into nor changes. A payload is put
together from a body and what a layout puts before and after it.

Covers `framed`, and the quoted form, which tells the length and nothing else.
-/

namespace LogShipper.Payload

/-- Header, body and footer in a row. -/
def framed (header : Option Bytes) (body : Bytes) (footer : Option Bytes) : Bytes :=
  header.getD [] ++ body ++ footer.getD []

/-- The quoted form, which tells the length alone. -/
def quoted (payload : Bytes) : String :=
  Text.record "Payload" [("len", Text.decimal payload.length)]

@[simp] theorem framed_none (body : Bytes) : framed none body none = body := by
  simp [framed]

end LogShipper.Payload
