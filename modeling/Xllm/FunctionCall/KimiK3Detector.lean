import Xllm.Lib.Outcome
import Xllm.Lib.Search

/-!
# The Kimi K3 detector

`KimiK3Detector` reads the response a model generates: a response block whose body is the content
shown to the user, a block of tool calls, and the close of the message, each between markers. One
path reads a whole text (`detectAndParse`), the other one a text that arrives in increments
(`parseStreamingIncrement`) and has to hold back what may still turn out to be a marker.

A text is the list of its bytes, and `std::string::find` is `Lib.find` and `Lib.findFrom`. An
exception is an error that carries its text. The JSON library is a parameter: `JsonLibrary` says
what a call of it gives, with the events its callback sees. Of a declared tool only the function's
name is read.
-/

namespace Xllm.FunctionCall

open Xllm.Lib

abbrev Text := List Char

/-! ## The markers -/

def kOpenToken : Text := "<|open|>".toList
def kSepToken : Text := "<|sep|>".toList
def kEndOfMessageToken : Text := "<|end_of_msg|>".toList
def kResponseStart : Text := "<|open|>response<|sep|>".toList
def kResponseEnd : Text := "<|close|>response<|sep|>".toList
def kMessageEnd : Text := "<|close|>message<|sep|>".toList
def kToolsStart : Text := "<|open|>tools<|sep|>".toList
def kToolsEnd : Text := "<|close|>tools<|sep|>".toList
def kCallEnd : Text := "<|close|>call<|sep|>".toList
def kArgumentEnd : Text := "<|close|>argument<|sep|>".toList
def kJsonStart : Text := "<|open|>json".toList
def kJsonEnd : Text := "<|close|>json<|sep|>".toList

theorem kResponseEnd_ne_nil : kResponseEnd ≠ [] := by decide +kernel

theorem kMessageEnd_ne_nil : kMessageEnd ≠ [] := by decide +kernel

theorem kToolsStart_ne_nil : kToolsStart ≠ [] := by decide +kernel

theorem kToolsEnd_ne_nil : kToolsEnd ≠ [] := by decide +kernel

/-! ## Data -/

structure JsonTool where
  functionName : Text
deriving DecidableEq

structure ToolCallItem where
  toolIndex : Nat
  name : Text
  parameters : Text
deriving DecidableEq, Repr

structure OpenTag where
  attributes : List (Text × Text)
  bodyStart : Nat
deriving DecidableEq

structure ParseSnapshot where
  content : Text := []
  calls : List ToolCallItem := []
  protocolComplete : Bool := false
deriving DecidableEq, Repr

structure StreamingParseResult where
  normalText : Text := []
  calls : List ToolCallItem := []
deriving DecidableEq, Repr

/-- What the callback of the JSON parser is told. -/
inductive ParseEvent where
  | objectStart
  | key (name : Text)
  | objectEnd
deriving DecidableEq

/-- The JSON library. `parse` runs without exceptions for syntax errors, where it gives no value,
and stops with a text for the others; `events` is what its callback sees, in order. -/
structure JsonLibrary where
  Json : Type
  parse : Text → Except String (Option Json × List ParseEvent)
  isNumber : Json → Bool
  isBoolean : Json → Bool
  isNull : Json → Bool
  isObject : Json → Bool
  isArray : Json → Bool
  ofString : Text → Json
  dump : Json → Except String Text
  /-- The dump of an object whose fields stand in the order they were inserted in. -/
  dumpOrdered : List (Text × Json) → Except String Text

/-! ## Reading a tag -/

def isSpace (character : Char) : Bool :=
  character = ' ' || character = '\t' || character = '\n' || character = '\x0b' ||
    character = '\x0c' || character = '\r'

def isAttributeKeyChar (character : Char) : Bool :=
  character.isAlphanum || character = '_' || character = '.' || character = '-'

/-- The end of the run of characters satisfying `p` that starts at `cursor`. -/
def skipWhile (p : Char → Bool) (text : Text) (cursor : Nat) : Nat :=
  cursor + ((text.drop cursor).takeWhile p).length

def skipWhitespace (text : Text) (cursor : Nat) : Nat :=
  skipWhile isSpace text cursor

/-- `text.substr(start, stop - start)`. -/
def slice (text : Text) (start stop : Nat) : Text :=
  (text.drop start).take (stop - start)

def decodeAttribute : Text → Except String Text
  | [] => .ok []
  | character :: rest =>
    if "&quot;".toList <+: character :: rest then
      return '"' :: (← decodeAttribute (rest.drop 5))
    else if "&amp;".toList <+: character :: rest then
      return '&' :: (← decodeAttribute (rest.drop 4))
    else if character = '&' then
      .error "Unsupported XTML attribute entity."
    else
      return character :: (← decodeAttribute rest)
termination_by value => value.length
decreasing_by
  · rw [List.length_drop, List.length_cons]
    omega
  · rw [List.length_drop, List.length_cons]
    omega
  · exact Nat.lt_succ_self _

/-- `result.contains(key)`. -/
def hasAttribute (attributes : List (Text × Text)) (key : Text) : Bool :=
  attributes.any (fun entry => entry.1 = key)

/-- `attributes.at(key)`, for a key that is there. -/
def attributeAt (attributes : List (Text × Text)) (key : Text) : Text :=
  (attributes.lookup key).getD []

theorem le_skipWhile (p : Char → Bool) (text : Text) (cursor : Nat) :
    cursor ≤ skipWhile p text cursor :=
  Nat.le_add_right _ _

/-- The loop of `parse_attributes`, at `cursor`, with the attributes read so far. -/
def parseAttributesFrom (attributes : Text) (cursor : Nat) (result : List (Text × Text)) :
    Except String (List (Text × Text)) :=
  if cursor < attributes.length then
    let keyStart := skipWhitespace attributes cursor
    if keyStart = attributes.length then .ok result
    else
      let keyEnd := skipWhile isAttributeKeyChar attributes keyStart
      if keyStart = keyEnd ∨ attributes.length ≤ keyEnd + 1 ∨
          attributes[keyEnd]? ≠ some '=' ∨ attributes[keyEnd + 1]? ≠ some '"' then
        .error ("Malformed XTML attributes at byte " ++ toString keyEnd ++ ".")
      else
        let key := slice attributes keyStart keyEnd
        let valueStart := keyEnd + 2
        match h : findFrom ['"'] attributes valueStart with
        | none =>
          .error ("Unclosed XTML attribute value at byte " ++ toString valueStart ++ ".")
        | some quote =>
          if hasAttribute result key then
            .error ("Duplicate XTML attribute at byte " ++ toString keyStart ++ ".")
          else do
            let value ← decodeAttribute (slice attributes valueStart quote)
            parseAttributesFrom attributes (quote + 1) (result ++ [(key, value)])
  else .ok result
termination_by attributes.length - cursor
decreasing_by
  have hquote := findFrom_le h
  have hkey := le_skipWhile isSpace attributes cursor
  have hend := le_skipWhile isAttributeKeyChar attributes (skipWhile isSpace attributes cursor)
  simp only [valueStart, keyEnd, keyStart, skipWhitespace] at hquote
  omega

def parseAttributes (attributes : Text) : Except String (List (Text × Text)) :=
  parseAttributesFrom attributes 0 []

def parseOpenTag (text : Text) (cursor : Nat) (tag : Text) : Except String OpenTag :=
  let remaining := text.drop cursor
  if ¬ (kOpenToken <+: remaining ∧ tag <+: remaining.drop kOpenToken.length) then
    .error "Unexpected XTML tag."
  else
    let attributesStart := cursor + kOpenToken.length + tag.length
    match findFrom kSepToken text attributesStart with
    | none => .error "Unclosed XTML start tag."
    | some separator => do
      let attributes ← parseAttributes (slice text attributesStart separator)
      return ⟨attributes, separator + kSepToken.length⟩

theorem lt_bodyStart {text tag : Text} {cursor : Nat} {openTag : OpenTag}
    (h : parseOpenTag text cursor tag = .ok openTag) : cursor < openTag.bodyStart := by
  rw [parseOpenTag] at h
  dsimp only at h
  split at h
  · cases h
  · split at h
    · cases h
    · rename_i separator hsep
      obtain ⟨attributes, -, h⟩ := bind_eq_ok.mp h
      cases h
      have hle := findFrom_le hsep
      have hopen : 0 < kOpenToken.length := by decide +kernel
      show cursor < separator + kSepToken.length
      omega

def requireAttributes (attributes : List (Text × Text)) (required : List Text) :
    Except String Unit :=
  if attributes.length ≠ required.length then .error "Unexpected XTML attributes."
  else if required.all (hasAttribute attributes) then .ok ()
  else .error "Missing required XTML attribute."

/-- Keep the longest suffix that can still become an incomplete delimiter. -/
def partialTokenOverlap (text marker : Text) : Nat :=
  if marker = [] then 0 else overlapUpTo text marker (min text.length (marker.length - 1))

/-- `safe_prefix`: the text without that suffix. -/
def safeText (text marker : Text) : Text :=
  text.take (text.length - partialTokenOverlap text marker)

/-! ## The arguments of a call -/

section Calls

variable (json : JsonLibrary)

/-- One event of the callback: the keys of the objects that are open, innermost first, and whether
a key came twice. -/
def rejectDuplicateKeys (seen : List (List Text) × Bool) : ParseEvent →
    List (List Text) × Bool
  | .objectStart => ([] :: seen.1, seen.2)
  | .key name =>
    match seen.1 with
    | [] => seen
    | keys :: outer => ((name :: keys) :: outer, seen.2 || keys.contains name)
  | .objectEnd => (seen.1.tail, seen.2)

def parseJsonValue (value : Text) : Except String json.Json :=
  match json.parse value with
  | .error what => .error ("Invalid JSON in K3 tool arguments: " ++ what)
  | .ok (parsed, events) =>
    if (events.foldl rejectDuplicateKeys ([], false)).2 then
      .error "Duplicate JSON key in K3 arguments."
    else
      match parsed with
      | none => .error "Invalid JSON in K3 tool arguments."
      | some parsed => .ok parsed

def parseTypedArgument (value type : Text) : Except String json.Json :=
  if type = "string".toList then .ok (json.ofString value)
  else do
    let parsed ← parseJsonValue json value
    if (type = "number".toList ∧ json.isNumber parsed) ∨
        (type = "boolean".toList ∧ json.isBoolean parsed) ∨
        (type = "null".toList ∧ json.isNull parsed) ∨
        (type = "object".toList ∧ json.isObject parsed) ∨
        (type = "array".toList ∧ json.isArray parsed) then
      return parsed
    else .error "K3 typed argument has an invalid value."

/-- The branch for arguments given as one JSON object. -/
def parseJsonArguments (body : Text) (cursor : Nat) : Except String Text := do
  let jsonTag ← parseOpenTag body cursor "json".toList
  requireAttributes jsonTag.attributes ["type".toList]
  if attributeAt jsonTag.attributes "type".toList ≠ "object".toList then
    .error "K3 json arguments must have object type."
  else
    match findFrom kJsonEnd body jsonTag.bodyStart with
    | none => .error "K3 json argument block is not closed."
    | some jsonEnd => do
      let value ← parseJsonValue json (slice body jsonTag.bodyStart jsonEnd)
      if ¬ json.isObject value then .error "K3 tool arguments must be a JSON object."
      else if skipWhitespace body (jsonEnd + kJsonEnd.length) ≠ body.length then
        .error "K3 call mixes argument encodings."
      else json.dump value

/-- The loop over the typed arguments, at `cursor`, with the arguments read so far. -/
def parseTypedArguments (body : Text) (cursor : Nat) (arguments : List (Text × json.Json)) :
    Except String (List (Text × json.Json)) :=
  if cursor < body.length then
    match htag : parseOpenTag body cursor "argument".toList with
    | .error error => .error error
    | .ok argumentTag => do
      requireAttributes argumentTag.attributes ["key".toList, "type".toList]
      let key := attributeAt argumentTag.attributes "key".toList
      if key = [] ∨ arguments.any (fun argument => argument.1 = key) then
        .error "K3 argument key is empty or duplicated."
      else
        match hend : findFrom kArgumentEnd body argumentTag.bodyStart with
        | none => .error "K3 typed argument is not closed."
        | some argumentEnd => do
          let value ← parseTypedArgument json (slice body argumentTag.bodyStart argumentEnd)
            (attributeAt argumentTag.attributes "type".toList)
          parseTypedArguments body (skipWhitespace body (argumentEnd + kArgumentEnd.length))
            (arguments ++ [(key, value)])
  else .ok arguments
termination_by body.length - cursor
decreasing_by
  have htag := lt_bodyStart htag
  have hend := findFrom_le hend
  have hskip := le_skipWhile isSpace body (argumentEnd + kArgumentEnd.length)
  simp only [skipWhitespace]
  omega

def parseCallArguments (body : Text) : Except String Text :=
  let cursor := skipWhitespace body 0
  if cursor = body.length then .ok "{}".toList
  else if kJsonStart <+: body.drop cursor then parseJsonArguments json body cursor
  else do
    let arguments ← parseTypedArguments json body cursor []
    json.dumpOrdered arguments

/-- The loop of `parse_calls`, at `cursor`, with the calls read so far. -/
def parseCallsFrom (body : Text) (allowedToolNames : List Text) (cursor : Nat)
    (calls : List ToolCallItem) : Except String (List ToolCallItem) :=
  if cursor < body.length then
    if skipWhitespace body cursor = body.length then .ok calls
    else
      match htag : parseOpenTag body (skipWhitespace body cursor) "call".toList with
      | .error error => .error error
      | .ok callTag => do
        requireAttributes callTag.attributes ["tool".toList, "index".toList]
        let name := attributeAt callTag.attributes "tool".toList
        if name = [] then .error "K3 call name must not be empty."
        else if attributeAt callTag.attributes "index".toList ≠
            (toString (calls.length + 1)).toList then
          .error "K3 call indices must be sequential and start at one."
        else if ¬ allowedToolNames.contains name then
          .error "K3 attempted to call an unknown tool."
        else
          match hend : findFrom kCallEnd body callTag.bodyStart with
          | none => .error "K3 call block is not closed."
          | some callEnd => do
            let arguments ← parseCallArguments json (slice body callTag.bodyStart callEnd)
            parseCallsFrom body allowedToolNames (callEnd + kCallEnd.length)
              (calls ++ [⟨calls.length, name, arguments⟩])
  else .ok calls
termination_by body.length - cursor
decreasing_by
  have htag := lt_bodyStart htag
  have hend := findFrom_le hend
  have hskip := le_skipWhile isSpace body cursor
  simp only [skipWhitespace] at htag
  omega

def parseCalls (body : Text) (allowedToolNames : List Text) : Except String (List ToolCallItem) :=
  parseCallsFrom json body allowedToolNames 0 []

/-- The calls of a tools block. Without declared tools the block is passed over. -/
def parseToolsBlock (body : Text) (tools : List JsonTool) : Except String (List ToolCallItem) :=
  if tools = [] then .ok []
  else parseCalls json body (tools.map (·.functionName))

/-! ## The response -/

def unexpectedContent : String := "Unexpected content after the K3 message."

/-- The second half of `parse_response_tail`: the message close and what may follow it, from
`cursor`, with the calls of the tools block. -/
def parseMessageTail (text : Text) (cursor : Nat) (calls : List ToolCallItem)
    (snapshot : ParseSnapshot) : Except String ParseSnapshot :=
  let closeAt := skipWhitespace text cursor
  let messageTail := text.drop closeAt
  if ¬ kMessageEnd <+: messageTail then
    if messageTail <+: kMessageEnd then .ok snapshot
    else .error "K3 output is missing its message end marker."
  else
    let remainder := text.drop (closeAt + kMessageEnd.length)
    let remainder :=
      if kEndOfMessageToken <+: remainder then remainder.drop kEndOfMessageToken.length
      else if remainder <+: kEndOfMessageToken then []
      else remainder
    if remainder.any (fun character => !isSpace character) then .error unexpectedContent
    else .ok { snapshot with protocolComplete := true, calls := calls }

def parseResponseTail (text : Text) (tools : List JsonTool) (snapshot : ParseSnapshot) :
    Except String ParseSnapshot :=
  let cursor := skipWhitespace text 0
  let tail := text.drop cursor
  if kToolsStart <+: tail then
    let toolsBodyStart := cursor + kToolsStart.length
    match findFrom kToolsEnd text toolsBodyStart with
    | none => .ok snapshot
    | some toolsEnd => do
      let calls ← parseToolsBlock json (slice text toolsBodyStart toolsEnd) tools
      parseMessageTail text (toolsEnd + kToolsEnd.length) calls snapshot
  else if tail <+: kToolsStart then .ok snapshot
  else parseMessageTail text cursor [] snapshot

/-- The second half of `parse_snapshot`, from the start of the response body. The error, if there
is one, comes beside the snapshot: the content was set before. -/
def parseResponse (text : Text) (cursor : Nat) (tools : List JsonTool) :
    ParseSnapshot × Option String :=
  match findFrom kResponseEnd text cursor with
  | none => ({ content := safeText (text.drop cursor) kResponseEnd }, none)
  | some responseEnd =>
    let snapshot : ParseSnapshot := { content := slice text cursor responseEnd }
    match parseResponseTail json (text.drop (responseEnd + kResponseEnd.length)) tools snapshot with
    | .ok snapshot => (snapshot, none)
    | .error error => (snapshot, some error)

def parseSnapshot (text : Text) (tools : List JsonTool) : ParseSnapshot × Option String :=
  if kResponseStart <+: text then parseResponse json text kResponseStart.length tools
  else if text <+: kResponseStart then ({}, none)
  else parseResponse json text 0 tools

def detectAndParse (text : Text) (tools : List JsonTool) : StreamingParseResult :=
  let snapshot := (parseSnapshot json text tools).1
  ⟨snapshot.content, snapshot.calls⟩

/-! ## The increments -/

inductive StreamState where
  | responseStart
  | response
  | tail
  | done
deriving DecidableEq, Repr

structure KimiK3Detector where
  streamState : StreamState := .responseStart
  buffer : Text := []
  tailSearchOffset : Nat := 0
deriving DecidableEq, Repr

/-- The last part of `parse_streaming_increment`, in the state `TAIL`. -/
def parseTailIncrement (detector : KimiK3Detector) (contentDelta : Text) (tools : List JsonTool) :
    KimiK3Detector × StreamingParseResult :=
  match findFrom kMessageEnd detector.buffer detector.tailSearchOffset with
  | none =>
    ({ detector with tailSearchOffset :=
        if detector.buffer.length > kMessageEnd.length - 1 then
          detector.buffer.length - (kMessageEnd.length - 1)
        else 0 }, ⟨contentDelta, []⟩)
  | some _ =>
    match parseResponseTail json detector.buffer tools {} with
    | .error _ => ({ detector with streamState := .done, buffer := [] }, ⟨contentDelta, []⟩)
    | .ok snapshot =>
      (if snapshot.protocolComplete then { detector with streamState := .done, buffer := [] }
        else detector, ⟨contentDelta, snapshot.calls⟩)

/-- The part of `parse_streaming_increment` in the state `RESPONSE`. -/
def parseResponseIncrement (detector : KimiK3Detector) (tools : List JsonTool) :
    KimiK3Detector × StreamingParseResult :=
  match find kResponseEnd detector.buffer with
  | none =>
    let safeSize := detector.buffer.length - partialTokenOverlap detector.buffer kResponseEnd
    ({ detector with buffer := detector.buffer.drop safeSize }, ⟨detector.buffer.take safeSize, []⟩)
  | some responseEnd =>
    parseTailIncrement json
      { detector with
        streamState := .tail
        buffer := detector.buffer.drop (responseEnd + kResponseEnd.length) }
      (detector.buffer.take responseEnd) tools

def parseStreamingIncrement (detector : KimiK3Detector) (newText : Text) (tools : List JsonTool) :
    KimiK3Detector × StreamingParseResult :=
  let buffer := detector.buffer ++ newText
  match detector.streamState with
  | .done => (detector, {})
  | .responseStart =>
    if buffer <+: kResponseStart then ({ detector with buffer := buffer }, {})
    else
      parseResponseIncrement json
        { detector with
          streamState := .response
          buffer :=
            if kResponseStart <+: buffer then buffer.drop kResponseStart.length else buffer }
        tools
  | .response => parseResponseIncrement json { detector with buffer := buffer } tools
  | .tail => parseTailIncrement json { detector with buffer := buffer } [] tools

/-- One detector fed a list of increments, with the result of each. -/
def parseIncrements (tools : List JsonTool) :
    KimiK3Detector → List Text → KimiK3Detector × List StreamingParseResult
  | detector, [] => (detector, [])
  | detector, newText :: rest =>
    let step := parseStreamingIncrement json detector newText tools
    let run := parseIncrements tools step.1 rest
    (run.1, step.2 :: run.2)

end Calls

end Xllm.FunctionCall
