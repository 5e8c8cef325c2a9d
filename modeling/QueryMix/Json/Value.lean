import QueryMix.Json.Token

/-!
# `QueryMix.Json.Value`: JSON values

A value is read from its tokens one by one. While a value is being read, the arrays and
objects around it wait for their ends; each is a `Frame`. There is no bound on their number.
`Reading` is what may come next, and a reading that has come to a whole value with no frame
around it has read a text (`Value.ofText?`).
-/

set_option autoImplicit false

namespace QueryMix.Json

/-- A JSON value. A text or key is none when it holds half a UTF-16 pair. -/
inductive Value where
  | null
  | bool (b : Bool)
  | number
  | text (t : Option Text)
  | array (members : List Value)
  | object (fields : List (Option Text × Value))
deriving Repr

/-- An array or object whose end has not come yet; its finished members come last first. -/
inductive Frame where
  | array (members : List Value)
  | object (fields : List (Option Text × Value)) (key : Option Text)
deriving Repr

/-- What may come next, inside the frames `around`, innermost first. -/
inductive Reading where
  /-- A value. -/
  | value (around : List Frame)
  /-- The first value of an array, or its end. -/
  | firstMember (around : List Frame)
  /-- The first key of an object, or its end. -/
  | firstKey (around : List Frame)
  /-- A key of an object that has fields. -/
  | key (around : List Frame) (fields : List (Option Text × Value))
  /-- The colon after a key. -/
  | colon (around : List Frame) (fields : List (Option Text × Value)) (key : Option Text)
  /-- Whatever follows a whole value. -/
  | after (around : List Frame) (v : Value)
deriving Repr

namespace Reading

/-- One token where a value must come. -/
def startValue (around : List Frame) : Token → Option Reading
  | .openArray => some (firstMember around)
  | .openObject => some (firstKey around)
  | .null => some (after around .null)
  | .bool b => some (after around (.bool b))
  | .number => some (after around .number)
  | .text t => some (after around (.text t))
  | _ => none

/-- One token further. -/
def step : Reading → Token → Option Reading
  | value around, token => startValue around token
  | firstMember around, .closeArray => some (after around (.array []))
  | firstMember around, token => startValue (.array [] :: around) token
  | firstKey around, .closeObject => some (after around (.object []))
  | firstKey around, .text k => some (colon around [] k)
  | key around fields, .text k => some (colon around fields k)
  | colon around fields k, .colon => some (value (.object fields k :: around))
  | after (.array members :: around) v, .comma => some (value (.array (v :: members) :: around))
  | after (.array members :: around) v, .closeArray =>
    some (after around (.array (v :: members).reverse))
  | after (.object fields k :: around) v, .comma => some (key around ((k, v) :: fields))
  | after (.object fields k :: around) v, .closeObject =>
    some (after around (.object ((k, v) :: fields).reverse))
  | _, _ => none

/-- The value that has been read, if it is whole and nothing waits for its end. -/
def result? : Reading → Option Value
  | after [] v => some v
  | _ => none

end Reading

/-- The value that the tokens make up. -/
def Value.ofTokens? (tokens : List Token) : Option Value := do
  let reading ← tokens.foldlM Reading.step (Reading.value [])
  reading.result?

/-- The value that a text holds, with blanks around it or not. -/
def Value.ofText? (t : Text) : Option Value := do
  let tokens ← Token.ofText? t
  Value.ofTokens? tokens

end QueryMix.Json
