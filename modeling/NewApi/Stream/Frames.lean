import NewApi.Lib.Text

/-!
# Frames

Every frame gets an event id line `id: <attempt>:<sequence>` in front. A frame is
*terminal* when one of its events ends the protocol, and it has *business data*
when it carries more than ids, retries and comments.

The functions work on characters. All they look for is ASCII, so bytes and
characters agree.
-/

namespace NewApi

open Text

/-- `strings.ReplaceAll(data, "\r\n", "\n")`. -/
def normalizeLines : List Char → List Char
  | '\r' :: '\n' :: rest => '\n' :: normalizeLines rest
  | c :: rest => c :: normalizeLines rest
  | [] => []

/-- `strings.Split(data, "\n\n")`. -/
def splitBlocks : List Char → List (List Char)
  | '\n' :: '\n' :: rest => [] :: splitBlocks rest
  | c :: rest => consFirst c (splitBlocks rest)
  | [] => [[]]

def lineField (line : List Char) : List Char := (cut ':' line).1

/-- The value of a line, without one leading space. -/
def lineValue (line : List Char) : List Char :=
  match (cut ':' line).2 with
  | some (' ' :: value) => value
  | some value => value
  | none => []

/-! ## Event ids -/

def eventId (attempt sequence : Nat) : List Char := decimal attempt ++ ':' :: decimal sequence

variable (frame : List Char)

/-- `looksLikeSSEFrame`. -/
def looksLikeSSEFrame : Bool :=
  (splitLines (normalizeLines frame)).any fun line =>
    lineField line = "data".toList || lineField line = "event".toList

/-- `appendStreamRecoveryEventID`. -/
def appendStreamRecoveryEventID (attempt sequence : Nat) : List Char :=
  if frame = [] || !looksLikeSSEFrame frame then frame
  else
    let lines := (splitLines (normalizeLines frame)).filter fun line => lineField line ≠ "id".toList
    "id: ".toList ++ eventId attempt sequence ++ '\n' :: joinLines lines

/-! ## Terminal frames and business data -/

/-- The last event and all the data of a block. -/
def blockFields (block : List Char) : List Char × List (List Char) :=
  (splitLines block).foldl
    (fun (event, data) line =>
      if lineField line = "event".toList then (lineValue line, data)
      else if lineField line = "data".toList then (event, data ++ [lineValue line])
      else (event, data))
    ([], [])

/-- The events that end a stream with a failure. -/
def failureEvents : List (List Char) :=
  ["error".toList, "response.error".toList, "response.failed".toList,
    "response.incomplete".toList, "response.cancelled".toList, "response.canceled".toList]

/-- The events that end a stream as it should. -/
def successEvents : List (List Char) :=
  ["response.completed".toList, "response.done".toList, "message_stop".toList]

/-- The first block that ends the stream decides. -/
def terminalOf : List (List Char) → Bool × Bool
  | [] => (false, false)
  | block :: rest =>
    let (event, data) := blockFields block
    if event ∈ failureEvents then (true, true)
    else if event ∈ successEvents ∨ joinLines data = "[DONE]".toList then (true, false)
    else terminalOf rest

/-- `StreamRecoveryTerminalState`: terminal, and failed. -/
def streamRecoveryTerminalState : Bool × Bool := terminalOf (splitBlocks (normalizeLines frame))

def businessLine (line : List Char) : Bool :=
  match line with
  | [] => false
  | ':' :: _ => false
  | line =>
    match cut ':' line with
    | (_, none) => true
    | (field, some value) =>
      if field = "id".toList ∨ field = "retry".toList then false
      else if field = "event".toList then !value.all isSpace
      else true

/-- `StreamRecoveryFrameHasBusinessData`. -/
def streamRecoveryFrameHasBusinessData (data : List Char) : Bool :=
  if streamRecoveryTerminalState data = (true, true) then false
  else (splitLines (normalizeLines data)).any businessLine

end NewApi
