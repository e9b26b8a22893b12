import Mathlib
import Xllm.FunctionCall.KimiK3Detector

/-!
# Streaming a Kimi K3 response

A detector that is fed a response in increments gives, put together, the content the one-shot
parse of the whole text gives, and publishes the calls of the one-shot parse in one increment
(`stream_agrees`), wherever the increments cut the markers.

The argument looks at the text read so far. `bodyOf` is what is left of it after the response
opener, `AtTail` says that the response close was found in it, and `tailCalls` is the verdict on
the rest: incomplete, complete with calls, or rejected. Each of the three only moves one way as
text is added. `Reached` then says, case by case of the stream state, what the detector holds and
what it has given out; `Reached.increment` is the step, `reached` the run.

Two things hold less far than one might expect, and both are the format's (`late_text_stray_close`):
text that follows the message close in a later increment cannot take back calls that are published,
and a message close without a response close before it is content like any other text.
-/

namespace Xllm.FunctionCall

open Xllm.Lib List

/-! ## The end of the message -/

variable {marker text : Text}

theorem not_prefix_append (h : ¬ marker <+: text) (h' : ¬ text <+: marker)
    (more : Text) : ¬ marker <+: text ++ more := by
  intro hp
  rcases List.prefix_or_prefix_of_prefix hp (prefix_append text more) with hm | ht
  · exact h hm
  · exact h' ht

variable {cursor : Nat}

theorem skipWhile_le {p : Char → Bool}
    (h : cursor ≤ text.length) : skipWhile p text cursor ≤ text.length := by
  have := (List.takeWhile_prefix (l := text.drop cursor) p).length_le
  rw [length_drop] at this
  rw [skipWhile]
  omega

/-- Where a run of characters ends before the end of the text, more text does not prolong it. -/
theorem skipWhile_append {p : Char → Bool}
    (hlt : skipWhile p text cursor < text.length) (more : Text) :
    skipWhile p (text ++ more) cursor = skipWhile p text cursor := by
  have hcursor : cursor ≤ text.length := by
    have := le_skipWhile p text cursor
    omega
  rw [skipWhile] at hlt
  rw [skipWhile, skipWhile, drop_append_of_le_length hcursor, takeWhile_append, if_neg]
  rw [length_drop]
  omega

/-- What may not follow the message close. -/
def unexpectedAfter (remainder : Text) : Bool :=
  (if kEndOfMessageToken <+: remainder then remainder.drop kEndOfMessageToken.length
    else if remainder <+: kEndOfMessageToken then []
    else remainder).any (fun character => !isSpace character)

theorem unexpectedAfter_append {remainder : Text} (h : unexpectedAfter remainder = true)
    (more : Text) : unexpectedAfter (remainder ++ more) = true := by
  rw [unexpectedAfter] at h ⊢
  by_cases hend : kEndOfMessageToken <+: remainder
  · rw [if_pos hend] at h
    rw [if_pos (hend.trans (prefix_append _ _)),
      drop_append_of_le_length hend.length_le, any_append, h, Bool.true_or]
  · rw [if_neg hend] at h
    by_cases hpart : remainder <+: kEndOfMessageToken
    · rw [if_pos hpart] at h
      cases h
    · rw [if_neg hpart] at h
      rw [if_neg, if_neg, any_append, h, Bool.true_or]
      · exact fun hp => hpart ((prefix_append _ _).trans hp)
      · exact not_prefix_append hend hpart more

/-- What the end of a response amounts to: incomplete, complete with its calls, or an error. -/
abbrev Verdict := Except String (Option (List ToolCallItem))

/-- A snapshot once the verdict is there. -/
def ParseSnapshot.settle (snapshot : ParseSnapshot) : Option (List ToolCallItem) → ParseSnapshot
  | none => snapshot
  | some calls => { snapshot with protocolComplete := true, calls := calls }

/-- The verdict of `parseMessageTail`. -/
def messageVerdict (text : Text) (cursor : Nat) (calls : List ToolCallItem) : Verdict :=
  let closeAt := skipWhitespace text cursor
  if ¬ kMessageEnd <+: text.drop closeAt then
    if text.drop closeAt <+: kMessageEnd then .ok none
    else .error "K3 output is missing its message end marker."
  else if unexpectedAfter (text.drop (closeAt + kMessageEnd.length)) then
    .error unexpectedContent
  else .ok (some calls)

theorem parseMessageTail_eq (text : Text) (cursor : Nat) (calls : List ToolCallItem)
    (snapshot : ParseSnapshot) :
    parseMessageTail text cursor calls snapshot =
      (messageVerdict text cursor calls).map snapshot.settle := by
  rw [parseMessageTail, messageVerdict]
  split
  · split <;> rfl
  · change (if unexpectedAfter _ = true then _ else _) = _
    split <;> rfl

/-- How a verdict may change when text is added. -/
structure Monotone (before after : Verdict) : Prop where
  error : ∀ e, before = .error e → after = .error e
  complete : ∀ calls, before = .ok (some calls) →
    after = .ok (some calls) ∨ after = .error unexpectedContent

theorem messageVerdict_append (hcursor : cursor ≤ text.length)
    (calls : List ToolCallItem) (more : Text) :
    Monotone (messageVerdict text cursor calls) (messageVerdict (text ++ more) cursor calls) := by
  have hle : skipWhitespace text cursor ≤ text.length := skipWhile_le hcursor
  by_cases hclose : kMessageEnd <+: text.drop (skipWhitespace text cursor)
  · -- the close stays where it is, and what follows it grows
    have hlen := hclose.length_le
    have hpos := length_pos_iff.mpr kMessageEnd_ne_nil
    rw [length_drop] at hlen
    have hskip : skipWhitespace (text ++ more) cursor = skipWhitespace text cursor :=
      skipWhile_append (by rw [← skipWhitespace]; omega) more
    have hclose' : kMessageEnd <+: (text ++ more).drop (skipWhitespace text cursor) := by
      rw [drop_append_of_le_length hle]
      exact hclose.trans (prefix_append _ _)
    rw [messageVerdict, messageVerdict, hskip, if_neg (not_not_intro hclose),
      if_neg (not_not_intro hclose'), drop_append_of_le_length (by omega)]
    generalize text.drop (skipWhitespace text cursor + kMessageEnd.length) = remainder
    refine ⟨fun e he => ?_, fun c hok => ?_⟩
    · split at he
      · rename_i hbad
        rw [if_pos (unexpectedAfter_append hbad more), he]
      · cases he
    · split at hok
      · cases hok
      · split
        · exact Or.inr rfl
        · exact Or.inl hok
  · refine ⟨fun e he => ?_, fun c hok => ?_⟩
    · rw [messageVerdict, if_pos hclose] at he
      split at he
      · cases he
      · rename_i hpart
        have hlt : skipWhitespace text cursor < text.length := by
          by_contra hge
          rw [drop_of_length_le (by omega)] at hpart
          exact hpart (List.nil_prefix)
        have hskip : skipWhitespace (text ++ more) cursor = skipWhitespace text cursor :=
          skipWhile_append hlt more
        rw [messageVerdict, hskip, drop_append_of_le_length hle, if_pos, if_neg, he]
        · exact fun hp => hpart ((prefix_append _ _).trans hp)
        · exact not_prefix_append hclose hpart more
    · rw [messageVerdict, if_pos hclose] at hok
      split at hok <;> exact nomatch hok

theorem messageVerdict_complete {calls calls' : List ToolCallItem}
    (h : messageVerdict text cursor calls = .ok (some calls')) :
    ∃ j, Occurs kMessageEnd text j := by
  rw [messageVerdict] at h
  split at h
  · split at h <;> exact nomatch h
  · rename_i hclose
    exact ⟨_, not_not.mp hclose⟩

/-! ## The tail of the response -/

section Tail

variable (json : JsonLibrary)

/-- The verdict of `parseResponseTail`. -/
def tailVerdict (text : Text) (tools : List JsonTool) : Verdict :=
  let cursor := skipWhitespace text 0
  if kToolsStart <+: text.drop cursor then
    let toolsBodyStart := cursor + kToolsStart.length
    match findFrom kToolsEnd text toolsBodyStart with
    | none => .ok none
    | some toolsEnd => do
      let calls ← parseToolsBlock json (slice text toolsBodyStart toolsEnd) tools
      messageVerdict text (toolsEnd + kToolsEnd.length) calls
  else if text.drop cursor <+: kToolsStart then .ok none
  else messageVerdict text cursor []

theorem parseResponseTail_eq (text : Text) (tools : List JsonTool) (snapshot : ParseSnapshot) :
    parseResponseTail json text tools snapshot =
      (tailVerdict json text tools).map snapshot.settle := by
  rw [parseResponseTail, tailVerdict]
  dsimp only
  split
  · cases findFrom kToolsEnd text (skipWhitespace text 0 + kToolsStart.length) with
    | none => rfl
    | some toolsEnd =>
      dsimp only
      cases parseToolsBlock json _ tools with
      | error e => rfl
      | ok calls => exact parseMessageTail_eq ..
  · split
    · rfl
    · exact parseMessageTail_eq ..

theorem slice_append {text : Text} {start stop : Nat} (hstart : start ≤ text.length)
    (hstop : stop ≤ text.length) (more : Text) :
    slice (text ++ more) start stop = slice text start stop := by
  rw [slice, slice, drop_append_of_le_length hstart, take_append_of_le_length]
  rw [length_drop]
  omega

/-- Text that is added to a response that is rejected, or complete, changes its verdict only from
complete to the error for what follows the close. -/
theorem tailVerdict_append (text : Text) (tools : List JsonTool) (more : Text) :
    Monotone (tailVerdict json text tools) (tailVerdict json (text ++ more) tools) := by
  have hle : skipWhitespace text 0 ≤ text.length := skipWhile_le (Nat.zero_le _)
  rcases Nat.eq_or_lt_of_le hle with heq | hlt
  · -- nothing but whitespace: the verdict is still open
    have hnil : text.drop (skipWhitespace text 0) = [] := drop_of_length_le (by omega)
    have hopen : tailVerdict json text tools = .ok none := by
      rw [tailVerdict]
      rw [hnil, if_neg, if_pos List.nil_prefix]
      exact fun h => kToolsStart_ne_nil (prefix_nil.mp h)
    rw [hopen]
    exact ⟨fun e he => (nomatch he), fun c hc => nomatch hc⟩
  have hskip : skipWhitespace (text ++ more) 0 = skipWhitespace text 0 := skipWhile_append hlt more
  rw [tailVerdict, tailVerdict]
  dsimp only
  rw [hskip, drop_append_of_le_length hle]
  by_cases htools : kToolsStart <+: text.drop (skipWhitespace text 0)
  · rw [if_pos htools, if_pos (htools.trans (prefix_append _ _))]
    have hlen := htools.length_le
    rw [length_drop] at hlen
    cases hend : findFrom kToolsEnd text (skipWhitespace text 0 + kToolsStart.length) with
    | none => exact ⟨fun e he => (nomatch he), fun c hc => nomatch hc⟩
    | some toolsEnd =>
      rw [findFrom_append kToolsEnd_ne_nil hend]
      dsimp only
      have hin := findFrom_add_length_le kToolsEnd_ne_nil hend
      rw [slice_append (by omega) (by omega)]
      cases parseToolsBlock json _ tools with
      | error e => exact ⟨fun e he => he, fun c hc => nomatch hc⟩
      | ok calls => exact messageVerdict_append hin calls more
  · rw [if_neg htools]
    by_cases hpart : text.drop (skipWhitespace text 0) <+: kToolsStart
    · rw [if_pos hpart]
      exact ⟨fun e he => (nomatch he), fun c hc => nomatch hc⟩
    · rw [if_neg hpart, if_neg, if_neg]
      · exact messageVerdict_append hle [] more
      · exact fun hp => hpart ((prefix_append _ _).trans hp)
      · exact not_prefix_append htools hpart more

theorem tailVerdict_complete {text : Text} {tools : List JsonTool} {calls : List ToolCallItem}
    (h : tailVerdict json text tools = .ok (some calls)) : ∃ j, Occurs kMessageEnd text j := by
  rw [tailVerdict] at h
  dsimp only at h
  split at h
  · split at h
    · cases h
    · obtain ⟨parsed, -, h⟩ := bind_eq_ok.mp h
      exact messageVerdict_complete h
  · split at h
    · cases h
    · exact messageVerdict_complete h

end Tail

/-! ## The text as a whole -/

/-- The text after the response opener, where the opener is not to be waited for. -/
def bodyOf (text : Text) : Text :=
  if kResponseStart <+: text then text.drop kResponseStart.length else text

theorem bodyOf_append (h : ¬ text <+: kResponseStart) (more : Text) :
    bodyOf (text ++ more) = bodyOf text ++ more := by
  rw [bodyOf, bodyOf]
  by_cases hstart : kResponseStart <+: text
  · rw [if_pos hstart, if_pos (hstart.trans (prefix_append _ _)),
      drop_append_of_le_length hstart.length_le]
  · rw [if_neg hstart, if_neg (not_prefix_append hstart h more)]

theorem opener_append_bodyOf (text : Text) :
    (if kResponseStart <+: text then kResponseStart else []) ++ bodyOf text = text := by
  rw [bodyOf]
  by_cases hstart : kResponseStart <+: text
  · rw [if_pos hstart, if_pos hstart]
    exact prefix_iff_eq_append.mp hstart
  · rw [if_neg hstart, if_neg hstart, nil_append]

theorem not_append_prefix (h : ¬ text <+: marker) (more : Text) :
    ¬ text ++ more <+: marker :=
  fun hp => h ((prefix_append _ _).trans hp)

/-- The response close stands at `k` of the body, and `tail` follows it. -/
structure AtTail (text : Text) (k : Nat) (tail : Text) : Prop where
  opened : ¬ text <+: kResponseStart
  closed : find kResponseEnd (bodyOf text) = some k
  tail_eq : tail = (bodyOf text).drop (k + kResponseEnd.length)

namespace AtTail

variable {text tail : Text} {k : Nat}

theorem le_length (h : AtTail text k tail) : k + kResponseEnd.length ≤ (bodyOf text).length :=
  find_add_length_le kResponseEnd_ne_nil h.closed

theorem append (h : AtTail text k tail) (more : Text) : AtTail (text ++ more) k (tail ++ more) where
  opened := not_append_prefix h.opened more
  closed := by
    rw [bodyOf_append h.opened]
    exact find_append kResponseEnd_ne_nil h.closed more
  tail_eq := by
    rw [bodyOf_append h.opened, drop_append_of_le_length h.le_length, h.tail_eq]

theorem take_append (h : AtTail text k tail) (more : Text) :
    (bodyOf (text ++ more)).take k = (bodyOf text).take k := by
  have := h.le_length
  rw [bodyOf_append h.opened, take_append_of_le_length (by omega)]

theorem le_of_occurs (h : AtTail text k tail) {more : Text} {j : Nat}
    (hocc : Occurs kResponseEnd (bodyOf text ++ more) j) : k ≤ j := by
  have hle := h.le_length
  by_contra hlt
  exact (find_some h.closed).2 j (by omega) (hocc.of_append (by omega))

end AtTail

theorem partialTokenOverlap_eq (hm : marker ≠ []) :
    partialTokenOverlap text marker = overlap text marker := by
  rw [partialTokenOverlap, if_neg hm, overlap]

theorem safeText_eq (hm : marker ≠ []) :
    safeText text marker = text.take (text.length - overlap text marker) := by
  rw [safeText, partialTokenOverlap_eq hm]

section Snapshot

variable (json : JsonLibrary) (tools : List JsonTool)

variable {text : Text}

theorem parseResponse_drop {cursor : Nat} (h : cursor ≤ text.length) :
    parseResponse json text cursor tools = parseResponse json (text.drop cursor) 0 tools := by
  rw [parseResponse, parseResponse, findFrom, if_pos h, findFrom, if_pos (Nat.zero_le _),
    List.drop_zero]
  cases find kResponseEnd (text.drop cursor) with
  | none => rfl
  | some k =>
    simp only [Option.map_some, slice, Nat.add_sub_cancel, Nat.sub_zero, Nat.add_zero,
      List.drop_zero, drop_drop]
    rw [show k + cursor + kResponseEnd.length = cursor + (k + kResponseEnd.length) by omega]

theorem parseSnapshot_waiting (h : text <+: kResponseStart) :
    parseSnapshot json text tools = ({}, none) := by
  rw [parseSnapshot]
  by_cases hstart : kResponseStart <+: text
  · obtain rfl : text = kResponseStart := h.eq_of_length_le hstart.length_le
    rw [parseResponse_drop json tools (Nat.le_refl _), drop_length]
    rfl
  · rw [if_neg hstart, if_pos h]

theorem parseSnapshot_opened (h : ¬ text <+: kResponseStart) :
    parseSnapshot json text tools = parseResponse json (bodyOf text) 0 tools := by
  rw [parseSnapshot, bodyOf]
  by_cases hstart : kResponseStart <+: text
  · rw [if_pos hstart, if_pos hstart]
    exact parseResponse_drop json tools hstart.length_le
  · rw [if_neg hstart, if_neg h, if_neg hstart]

theorem parseSnapshot_body (h : ¬ text <+: kResponseStart)
    (hnone : find kResponseEnd (bodyOf text) = none) :
    parseSnapshot json text tools =
      ({ content := (bodyOf text).take
          ((bodyOf text).length - overlap (bodyOf text) kResponseEnd) }, none) := by
  rw [parseSnapshot_opened json tools h, parseResponse, findFrom, if_pos (Nat.zero_le _),
    List.drop_zero, hnone]
  show (({ content := safeText (bodyOf text) kResponseEnd } : ParseSnapshot), none) = _
  rw [safeText_eq kResponseEnd_ne_nil]

variable {tail : Text} {k : Nat}

theorem parseSnapshot_tail (h : AtTail text k tail) :
    parseSnapshot json text tools =
      match tailVerdict json tail tools with
      | .ok verdict =>
        (({ content := (bodyOf text).take k } : ParseSnapshot).settle verdict, none)
      | .error error => ({ content := (bodyOf text).take k }, some error) := by
  rw [parseSnapshot_opened json tools h.opened, parseResponse, findFrom, if_pos (Nat.zero_le _),
    List.drop_zero, h.closed]
  simp only [Option.map_some, Nat.add_zero]
  rw [parseResponseTail_eq, ← h.tail_eq]
  cases tailVerdict json tail tools with
  | ok verdict => rfl
  | error e => rfl

/-! ## What a detector holds -/

def given (results : List StreamingParseResult) : Text :=
  (results.map (·.normalText)).flatten

theorem given_concat (results : List StreamingParseResult) (result : StreamingParseResult) :
    given (results ++ [result]) = given results ++ result.normalText := by
  rw [given, given, map_append, flatten_append]
  simp

def Quiet (results : List StreamingParseResult) : Prop :=
  ∀ result ∈ results, result.calls = []

variable {results : List StreamingParseResult}

theorem Quiet.concat (h : Quiet results)
    {result : StreamingParseResult} (hresult : result.calls = []) : Quiet (results ++ [result]) := by
  intro r hr
  rcases mem_append.mp hr with hr | hr
  · exact h r hr
  · rw [mem_singleton.mp hr]
    exact hresult

theorem Quiet.filter_eq (h : Quiet results) :
    results.filter (·.calls ≠ []) = [] := by
  refine filter_eq_nil_iff.mpr fun result hresult => ?_
  rw [decide_eq_true_eq]
  exact not_not_intro (h result hresult)

theorem Quiet.flatten_eq (h : Quiet results) :
    (results.map (·.calls)).flatten = [] := by
  refine flatten_eq_nil_iff.mpr fun calls hcalls => ?_
  obtain ⟨result, hresult, rfl⟩ := mem_map.mp hcalls
  exact h result hresult

/-- The detector that has read `chunks` and given `results`, by its stream state. -/
inductive Reached : List Text → KimiK3Detector → List StreamingParseResult → Prop
  /-- The opener may still be to come. -/
  | waiting {chunks : List Text} {results : List StreamingParseResult}
      (hstart : chunks.flatten <+: kResponseStart) (hgiven : given results = [])
      (hquiet : Quiet results) :
      Reached chunks ⟨.responseStart, chunks.flatten, 0⟩ results
  /-- In the content: the buffer is what may be the beginning of the response close. -/
  | body {chunks : List Text} {results : List StreamingParseResult}
      (hopen : ¬ chunks.flatten <+: kResponseStart)
      (hnone : find kResponseEnd (bodyOf chunks.flatten) = none)
      (hgiven : given results = (bodyOf chunks.flatten).take
        ((bodyOf chunks.flatten).length - overlap (bodyOf chunks.flatten) kResponseEnd))
      (hquiet : Quiet results) :
      Reached chunks ⟨.response, retained (bodyOf chunks.flatten) kResponseEnd, 0⟩ results
  /-- After the content: no message close, now or later, stands before the search offset. -/
  | tail {chunks : List Text} {results : List StreamingParseResult} {k offset : Nat} {tail : Text}
      (hat : AtTail chunks.flatten k tail)
      (hopen : ∀ calls, tailVerdict json tail tools ≠ .ok (some calls))
      (hoffset : offset ≤ tail.length)
      (hskip : ∀ more j, Occurs kMessageEnd (tail ++ more) j → offset ≤ j)
      (hgiven : given results = (bodyOf chunks.flatten).take k) (hquiet : Quiet results) :
      Reached chunks ⟨.tail, tail, offset⟩ results
  | rejected {chunks : List Text} {results : List StreamingParseResult} {k offset : Nat}
      {tail : Text} {error : String} (hat : AtTail chunks.flatten k tail)
      (herror : tailVerdict json tail tools = .error error)
      (hgiven : given results = (bodyOf chunks.flatten).take k) (hquiet : Quiet results) :
      Reached chunks ⟨.done, [], offset⟩ results
  /-- The first `n` increments made the message complete. -/
  | complete {chunks : List Text} {before after : List StreamingParseResult}
      {result : StreamingParseResult} {k n offset : Nat} {tail tail₀ : Text}
      (hat : AtTail chunks.flatten k tail) (hn : n ≤ chunks.length)
      (hat₀ : AtTail (chunks.take n).flatten k tail₀)
      (hcomplete : tailVerdict json tail₀ tools = .ok (some result.calls))
      (hgiven : given (before ++ result :: after) = (bodyOf chunks.flatten).take k)
      (hbefore : Quiet before) (hafter : Quiet after) :
      Reached chunks ⟨.done, [], offset⟩ (before ++ result :: after)

variable {json tools}

variable {chunks : List Text}

theorem Reached.tailIncrement {offset : Nat} {delta : Text} (hat : AtTail chunks.flatten k tail)
    (hoffset : offset ≤ tail.length)
    (hskip : ∀ more j, Occurs kMessageEnd (tail ++ more) j → offset ≤ j)
    (hgiven : given results ++ delta = (bodyOf chunks.flatten).take k) (hquiet : Quiet results) :
    Reached json tools chunks (parseTailIncrement json ⟨.tail, tail, offset⟩ delta tools).1
      (results ++ [(parseTailIncrement json ⟨.tail, tail, offset⟩ delta tools).2]) := by
  have hfind : findFrom kMessageEnd tail offset = find kMessageEnd tail := by
    refine findFrom_eq_find kMessageEnd_ne_nil hoffset fun j hj hocc => ?_
    have := hskip [] j (by rwa [append_nil])
    omega
  rw [parseTailIncrement]
  rw [hfind]
  cases hclose : find kMessageEnd tail with
  | none =>
    have hnone := (find_none_iff kMessageEnd_ne_nil).mp hclose
    refine Reached.tail hat (fun calls hcalls => ?_) ?_ (fun more j hocc => ?_) ?_
      (hquiet.concat rfl)
    · obtain ⟨j, hocc⟩ := tailVerdict_complete json hcalls
      exact hnone j hocc
    · split <;> omega
    · have := hocc.lt_of_append hnone
      split <;> omega
    · rw [given_concat]
      exact hgiven
  | some _ =>
    rw [parseResponseTail_eq]
    cases hverdict : tailVerdict json tail tools with
    | error e =>
      refine Reached.rejected hat hverdict ?_ (hquiet.concat rfl)
      rw [given_concat]
      exact hgiven
    | ok verdict =>
      cases verdict with
      | none =>
        refine Reached.tail hat (fun calls hcalls => ?_) hoffset hskip ?_ (hquiet.concat rfl)
        · rw [hverdict] at hcalls
          cases hcalls
        · rw [given_concat]
          exact hgiven
      | some calls =>
        refine Reached.complete hat (Nat.le_refl _) ?_ hverdict ?_ hquiet
          (fun r hr => nomatch hr)
        · rwa [take_length]
        · rw [given_concat]
          exact hgiven

theorem Reached.responseIncrement {base : Nat} (hopen : ¬ chunks.flatten <+: kResponseStart)
    {buffer : Text} (hbuffer : buffer = (bodyOf chunks.flatten).drop base)
    (hbase : base ≤ (bodyOf chunks.flatten).length)
    (hfind : find kResponseEnd (bodyOf chunks.flatten) = (find kResponseEnd buffer).map (· + base))
    (hoverlap : overlap (bodyOf chunks.flatten) kResponseEnd = overlap buffer kResponseEnd)
    (hgiven : given results = (bodyOf chunks.flatten).take base) (hquiet : Quiet results) :
    Reached json tools chunks (parseResponseIncrement json ⟨.response, buffer, 0⟩ tools).1
      (results ++ [(parseResponseIncrement json ⟨.response, buffer, 0⟩ tools).2]) := by
  have hlength : (bodyOf chunks.flatten).length = base + buffer.length := by
    rw [hbuffer, length_drop]
    omega
  rw [parseResponseIncrement]
  rw [partialTokenOverlap_eq kResponseEnd_ne_nil]
  cases hclose : find kResponseEnd buffer with
  | none =>
    rw [hclose, Option.map_none] at hfind
    have hle := @overlap_le_length _ _ buffer kResponseEnd
    have hsafe : (bodyOf chunks.flatten).length - overlap (bodyOf chunks.flatten) kResponseEnd =
        base + (buffer.length - overlap buffer kResponseEnd) := by
      omega
    have hkept : buffer.drop (buffer.length - overlap buffer kResponseEnd) =
        retained (bodyOf chunks.flatten) kResponseEnd := by
      rw [retained, hsafe, ← drop_drop, ← hbuffer]
    dsimp only
    rw [hkept]
    refine Reached.body hopen hfind ?_ (hquiet.concat rfl)
    rw [given_concat, hsafe, take_add, ← hgiven, ← hbuffer]
  | some k =>
    rw [hclose, Option.map_some] at hfind
    refine Reached.tailIncrement ⟨hopen, hfind, ?_⟩ (Nat.zero_le _) (fun _ j _ => Nat.zero_le j) ?_
      hquiet
    · rw [hbuffer, drop_drop]
      congr 1
      omega
    · rw [Nat.add_comm, take_add, ← hgiven, ← hbuffer]

variable {detector : KimiK3Detector}

/-- By how far the detector had come; in each case the new text goes on from there. -/
theorem Reached.increment (h : Reached json tools chunks detector results) (newText : Text) :
    Reached json tools (chunks ++ [newText]) (parseStreamingIncrement json detector newText tools).1
      (results ++ [(parseStreamingIncrement json detector newText tools).2]) := by
  have hflat : (chunks ++ [newText]).flatten = chunks.flatten ++ newText := by simp
  cases h with
  | waiting hstart hgiven hquiet =>
    rw [parseStreamingIncrement]
    rw [← hflat]
    by_cases hwait : (chunks ++ [newText]).flatten <+: kResponseStart
    · rw [if_pos hwait]
      refine Reached.waiting hwait ?_ (hquiet.concat rfl)
      rw [given_concat, hgiven]
      rfl
    · rw [if_neg hwait, ← bodyOf]
      refine @Reached.responseIncrement _ _ _ _ 0 hwait _ ?_ (Nat.zero_le _) ?_ rfl ?_ hquiet
      · rw [List.drop_zero]
      · cases find kResponseEnd (bodyOf (chunks ++ [newText]).flatten) <;> rfl
      · rw [take_zero, hgiven]
  | body hopen hnone hgiven hquiet =>
    have hopen' : ¬ (chunks ++ [newText]).flatten <+: kResponseStart := by
      rw [hflat]
      exact not_append_prefix hopen newText
    have hbody : bodyOf (chunks ++ [newText]).flatten = bodyOf chunks.flatten ++ newText := by
      rw [hflat, bodyOf_append hopen]
    refine @Reached.responseIncrement _ _ _ _
      ((bodyOf chunks.flatten).length - overlap (bodyOf chunks.flatten) kResponseEnd)
      hopen' _ ?_ ?_ ?_ ?_ ?_ hquiet
    · rw [hbody, drop_append_of_le_length (by omega), retained]
    · rw [hbody, length_append]
      omega
    · rw [hbody]
      exact find_append_overlap kResponseEnd_ne_nil hnone newText
    · rw [hbody]
      exact overlap_append kResponseEnd_ne_nil newText
    · rw [hbody, take_append_of_le_length (by omega)]
      exact hgiven
  | tail hat hopen hoffset hskip hgiven hquiet =>
    have hat' := hat.append newText
    rw [← hflat] at hat'
    refine Reached.tailIncrement hat' ?_ (fun more j hocc => ?_) ?_ hquiet
    · rw [length_append]
      exact Nat.le_add_right_of_le hoffset
    · rw [List.append_assoc] at hocc
      exact hskip _ j hocc
    · rw [append_nil, hflat, hat.take_append]
      exact hgiven
  | rejected hat herror hgiven hquiet =>
    have hat' := hat.append newText
    rw [← hflat] at hat'
    refine Reached.rejected hat' ((tailVerdict_append json _ tools newText).error _ herror) ?_
      (hquiet.concat rfl)
    rw [given_concat, hflat, hat.take_append, hgiven]
    exact append_nil _
  | @complete before after result k n offset tail tail₀ hat hn hat₀ hcomplete hgiven hbefore
      hafter =>
    have hat' := hat.append newText
    rw [← hflat] at hat'
    rw [List.append_assoc, cons_append]
    refine Reached.complete hat' (Nat.le_trans hn ?_) ?_ hcomplete ?_ hbefore (hafter.concat rfl)
    · rw [length_append]
      exact Nat.le_add_right _ _
    · rwa [take_append_of_le_length hn]
    · rw [← cons_append, ← List.append_assoc, given_concat, hflat, hat.take_append, hgiven]
      exact append_nil _

theorem parseIncrements_append (detector : KimiK3Detector) (chunks more : List Text) :
    parseIncrements json tools detector (chunks ++ more) =
      ((parseIncrements json tools (parseIncrements json tools detector chunks).1 more).1,
        (parseIncrements json tools detector chunks).2 ++
          (parseIncrements json tools (parseIncrements json tools detector chunks).1 more).2) := by
  induction chunks generalizing detector with
  | nil => rfl
  | cons newText rest ih =>
    rw [cons_append, parseIncrements, ih, parseIncrements]
    rfl

variable (json tools) in
theorem reached (chunks : List Text) :
    Reached json tools chunks (parseIncrements json tools {} chunks).1
      (parseIncrements json tools {} chunks).2 := by
  induction chunks using List.reverseRecOn with
  | nil => exact Reached.waiting List.nil_prefix rfl (fun r hr => nomatch hr)
  | append_singleton chunks newText ih =>
    rw [parseIncrements_append]
    exact ih.increment newText

/-! ## What a run gives -/

/-- The content is the body up to a place that no response close, now or later, begins before. -/
theorem Reached.given_eq_take (h : Reached json tools chunks detector results) :
    ∃ m ≤ (bodyOf chunks.flatten).length, given results = (bodyOf chunks.flatten).take m ∧
      ∀ more j, Occurs kResponseEnd (bodyOf chunks.flatten ++ more) j → m ≤ j := by
  cases h with
  | waiting _ hgiven _ =>
    exact ⟨0, Nat.zero_le _, by rw [hgiven, take_zero], fun _ j _ => Nat.zero_le j⟩
  | body _ hnone hgiven _ =>
    refine ⟨_, Nat.sub_le _ _, hgiven, fun more j hocc => ?_⟩
    exact hocc.sub_overlap_le ((find_none_iff kResponseEnd_ne_nil).mp hnone)
  | tail hat _ _ _ hgiven _ =>
    exact ⟨_, le_trans (Nat.le_add_right _ _) hat.le_length, hgiven, fun _ _ => hat.le_of_occurs⟩
  | rejected hat _ hgiven _ =>
    exact ⟨_, le_trans (Nat.le_add_right _ _) hat.le_length, hgiven, fun _ _ => hat.le_of_occurs⟩
  | complete hat _ _ _ hgiven _ _ =>
    exact ⟨_, le_trans (Nat.le_add_right _ _) hat.le_length, hgiven, fun _ _ => hat.le_of_occurs⟩

theorem settle_content (snapshot : ParseSnapshot) (verdict : Option (List ToolCallItem)) :
    (snapshot.settle verdict).content = snapshot.content := by
  cases verdict <;> rfl

theorem parseSnapshot_content (h : AtTail text k tail) :
    (parseSnapshot json text tools).1.content = (bodyOf text).take k := by
  rw [parseSnapshot_tail json tools h]
  cases tailVerdict json tail tools with
  | ok verdict => exact settle_content _ _
  | error e => rfl

theorem Reached.content (h : Reached json tools chunks detector results) :
    given results = (detectAndParse json chunks.flatten tools).normalText := by
  show _ = (parseSnapshot json chunks.flatten tools).1.content
  cases h with
  | waiting hstart hgiven _ => rw [hgiven, parseSnapshot_waiting json tools hstart]
  | body hopen hnone hgiven _ => rw [hgiven, parseSnapshot_body json tools hopen hnone]
  | tail hat _ _ _ hgiven _ => rw [hgiven, parseSnapshot_content hat]
  | rejected hat _ hgiven _ => rw [hgiven, parseSnapshot_content hat]
  | complete hat _ _ _ hgiven _ _ => rw [hgiven, parseSnapshot_content hat]

/-- Where nothing is published the one-shot parse gives no calls either; else the calls are those
of a complete message that ended with some increment. -/
theorem Reached.published (h : Reached json tools chunks detector results) :
    (Quiet results ∧ (detectAndParse json chunks.flatten tools).calls = []) ∨
      ∃ before result after k n tail tail₀, results = before ++ result :: after ∧
        Quiet before ∧ Quiet after ∧ n ≤ chunks.length ∧ AtTail chunks.flatten k (tail₀ ++ tail) ∧
        AtTail (chunks.take n).flatten k tail₀ ∧
        tailVerdict json tail₀ tools = .ok (some result.calls) := by
  cases h with
  | waiting hstart _ hquiet =>
    refine Or.inl ⟨hquiet, ?_⟩
    rw [detectAndParse, parseSnapshot_waiting json tools hstart]
  | body hopen hnone _ hquiet =>
    refine Or.inl ⟨hquiet, ?_⟩
    rw [detectAndParse, parseSnapshot_body json tools hopen hnone]
  | @tail _ _ _ tail hat hopen _ _ _ hquiet =>
    refine Or.inl ⟨hquiet, ?_⟩
    rw [detectAndParse, parseSnapshot_tail json tools hat]
    cases hverdict : tailVerdict json tail tools with
    | error e => rfl
    | ok verdict =>
      cases verdict with
      | none => rfl
      | some calls => exact absurd hverdict (hopen calls)
  | rejected hat herror _ hquiet =>
    refine Or.inl ⟨hquiet, ?_⟩
    rw [detectAndParse, parseSnapshot_tail json tools hat, herror]
  | @complete before after result k n _ tail tail₀ hat hn hat₀ hcomplete hgiven hbefore hafter =>
    refine Or.inr ⟨before, result, after, k, n, (chunks.drop n).flatten, tail₀, rfl, hbefore, hafter,
      hn, ?_, hat₀, hcomplete⟩
    have := hat₀.append (chunks.drop n).flatten
    rwa [← flatten_append, take_append_drop] at this

theorem parseSnapshot_complete {tail₀ : Text} {calls : List ToolCallItem}
    (hat : AtTail text k (tail₀ ++ tail)) (h : tailVerdict json tail₀ tools = .ok (some calls)) :
    (parseSnapshot json text tools).2 = none ∧ (detectAndParse json text tools).calls = calls ∨
      (parseSnapshot json text tools).2 = some unexpectedContent := by
  rw [detectAndParse, parseSnapshot_tail json tools hat]
  rcases (tailVerdict_append json tail₀ tools tail).complete calls h with h' | h'
  · rw [h']
    exact Or.inl ⟨rfl, rfl⟩
  · rw [h']
    exact Or.inr rfl

theorem Reached.offset (h : Reached json tools chunks detector results)
    (hdone : detector.streamState ≠ .done) (more : Text) :
    findFrom kMessageEnd (detector.buffer ++ more) detector.tailSearchOffset =
      find kMessageEnd (detector.buffer ++ more) := by
  cases h with
  | waiting _ _ _ => exact findFrom_eq_find kMessageEnd_ne_nil (Nat.zero_le _) (by simp)
  | body _ _ _ _ => exact findFrom_eq_find kMessageEnd_ne_nil (Nat.zero_le _) (by simp)
  | tail _ _ hoffset hskip _ _ =>
    refine findFrom_eq_find kMessageEnd_ne_nil ?_ fun j hj hocc => ?_
    · rw [length_append]
      exact Nat.le_add_right_of_le hoffset
    · exact absurd hj (Nat.not_lt.mpr (hskip more j hocc))
  | rejected _ _ _ _ => exact absurd rfl hdone
  | complete _ _ _ _ _ _ _ => exact absurd rfl hdone

/-! ## Both paths -/

variable (json tools)

/-- What a run over `chunks` has to do with the one-shot parse of the whole text. -/
structure StreamAgrees (chunks : List Text) : Prop where
  content : given (parseIncrements json tools {} chunks).2 =
    (detectAndParse json chunks.flatten tools).normalText
  /-- Calls are published by one increment at most. -/
  atomic : ((parseIncrements json tools {} chunks).2.filter (·.calls ≠ [])).length ≤ 1
  accepted : (parseSnapshot json chunks.flatten tools).2 = none →
    ((parseIncrements json tools {} chunks).2.map (·.calls)).flatten =
      (detectAndParse json chunks.flatten tools).calls
  rejected : ∀ error, (parseSnapshot json chunks.flatten tools).2 = some error →
    error ≠ unexpectedContent → Quiet (parseIncrements json tools {} chunks).2
  /-- Text after the close that came later: the calls are those of the increments before it. -/
  late : (parseSnapshot json chunks.flatten tools).2 = some unexpectedContent →
    Quiet (parseIncrements json tools {} chunks).2 ∨
      ∃ n ≤ chunks.length, (parseSnapshot json (chunks.take n).flatten tools).2 = none ∧
        ((parseIncrements json tools {} chunks).2.map (·.calls)).flatten =
          (detectAndParse json (chunks.take n).flatten tools).calls
  /-- The content stands between the opener and the rest, and neither the response close nor the
  beginning of one that is still to be completed reaches into it. -/
  marker : ∃ rest, chunks.flatten =
      (if kResponseStart <+: chunks.flatten then kResponseStart else []) ++
        given (parseIncrements json tools {} chunks).2 ++ rest ∧
      ∀ more j, Occurs kResponseEnd
        (given (parseIncrements json tools {} chunks).2 ++ rest ++ more) j →
          (given (parseIncrements json tools {} chunks).2).length ≤ j
  /-- Nor does the beginning of an opener. -/
  opener : chunks.flatten <+: kResponseStart → given (parseIncrements json tools {} chunks).2 = []
  /-- While the detector reads on, the search that starts at the offset finds what a search of the
  whole buffer finds. -/
  offset : (parseIncrements json tools {} chunks).1.streamState ≠ .done → ∀ more,
    findFrom kMessageEnd ((parseIncrements json tools {} chunks).1.buffer ++ more)
        (parseIncrements json tools {} chunks).1.tailSearchOffset =
      find kMessageEnd ((parseIncrements json tools {} chunks).1.buffer ++ more)

/-- **Streaming a response is parsing it at once**, whatever its increments. -/
theorem stream_agrees (chunks : List Text) : StreamAgrees json tools chunks := by
  have h := reached json tools chunks
  obtain ⟨m, hm, hgiven, hclose⟩ := h.given_eq_take
  have hlength : (given (parseIncrements json tools {} chunks).2).length = m := by
    rw [hgiven, length_take, Nat.min_eq_left hm]
  have hmarker : ∃ rest, chunks.flatten =
      (if kResponseStart <+: chunks.flatten then kResponseStart else []) ++
        given (parseIncrements json tools {} chunks).2 ++ rest ∧
      ∀ more j, Occurs kResponseEnd
        (given (parseIncrements json tools {} chunks).2 ++ rest ++ more) j →
          (given (parseIncrements json tools {} chunks).2).length ≤ j := by
    refine ⟨(bodyOf chunks.flatten).drop m, ?_, ?_⟩
    · rw [hgiven, List.append_assoc, take_append_drop, opener_append_bodyOf]
    · rw [hlength, hgiven, take_append_drop]
      exact hclose
  have hopener (hstart : chunks.flatten <+: kResponseStart) :
      given (parseIncrements json tools {} chunks).2 = [] := by
    rw [h.content, detectAndParse, parseSnapshot_waiting json tools hstart]
  rcases h.published with ⟨hquiet, hnone⟩ |
    ⟨before, result, after, k, n, tail, tail₀, hresults, hbefore, hafter, hn, hat, hat₀, hcalls⟩
  · exact {
      content := h.content
      atomic := by rw [hquiet.filter_eq]; exact Nat.zero_le 1
      accepted := fun _ => by rw [hquiet.flatten_eq, hnone]
      rejected := fun _ _ _ => hquiet
      late := fun _ => Or.inl hquiet
      marker := hmarker
      opener := hopener
      offset := h.offset }
  · have hflat : ((parseIncrements json tools {} chunks).2.map (·.calls)).flatten =
        result.calls := by
      rw [hresults, map_append, flatten_append, map_cons, flatten_cons,
        hbefore.flatten_eq, hafter.flatten_eq, nil_append, append_nil]
    refine {
      content := h.content
      atomic := ?_
      accepted := fun hok => ?_
      rejected := fun error herror hne => ?_
      late := fun _ => Or.inr ⟨n, hn, ?_⟩
      marker := hmarker
      opener := hopener
      offset := h.offset }
    · rw [hresults, filter_append, filter_cons, hbefore.filter_eq, hafter.filter_eq]
      split <;> simp
    · rw [hflat]
      rcases parseSnapshot_complete hat hcalls with ⟨-, hcalls'⟩ | hlate
      · exact hcalls'.symm
      · rw [hlate] at hok
        cases hok
    · rcases parseSnapshot_complete hat hcalls with ⟨hok, -⟩ | hlate
      · rw [hok] at herror
        cases herror
      · rw [hlate] at herror
        exact absurd (Option.some.inj herror).symm hne
    · rw [hflat, detectAndParse, parseSnapshot_tail json tools hat₀, hcalls]
      exact ⟨rfl, rfl⟩

end Snapshot

/-! ## Where the two paths part -/

/-- A library that accepts nothing, which does for calls without arguments. -/
def JsonLibrary.rejecting : JsonLibrary where
  Json := Unit
  parse := fun _ => .ok (none, [])
  isNumber := fun _ => false
  isBoolean := fun _ => false
  isNull := fun _ => true
  isObject := fun _ => false
  isArray := fun _ => false
  ofString := fun _ => ()
  dump := fun _ => .ok "null".toList
  dumpOrdered := fun _ => .ok "null".toList

/-- A message with one call of `f`. -/
def callMessage : Text :=
  ("<|open|>response<|sep|>hi<|close|>response<|sep|><|open|>tools<|sep|>" ++
    "<|open|>call tool=\"f\" index=\"1\"<|sep|><|close|>call<|sep|>" ++
    "<|close|>tools<|sep|><|close|>message<|sep|>").toList

/-- Text that comes after the message close leaves the calls published, which the one-shot parse
then rejects; and a message close that no response close comes before is content. -/
theorem late_text_stray_close :
    ((parseIncrements .rejecting [⟨"f".toList⟩] {} [callMessage, "x".toList]).2.map (·.calls)).flatten
        = [⟨0, "f".toList, "\x7b\x7d".toList⟩] ∧
      (detectAndParse .rejecting (callMessage ++ "x".toList) [⟨"f".toList⟩]).calls = [] ∧
      given (parseIncrements .rejecting [] {} [kMessageEnd]).2 = kMessageEnd := by
  decide +kernel

end Xllm.FunctionCall
